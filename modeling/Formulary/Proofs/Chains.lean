import Formulary.Proofs.Extending
import Formulary.Proofs.Lines

/-!
Chains of operators. A chain of operands with operators between them is read as a tree that has the
chain as its leaves and nodes from left to right and in which each operator binds at least as tightly
as strength and side ask for; there is no other such tree.
-/

namespace Formulary

namespace Parser

/-- Tokens that are an expression on their own. -/
def IsExpression (ts : List Token) (e : Expr) : Prop :=
  ∃ finish h, expr finish 0 ts = .ok ⟨(e, []), h⟩

/-- Arguments of a call: expressions with commas between them. -/
inductive IsArguments : List Token → List Expr → Prop
  | last {ts : List Token} {e : Expr} (h : IsExpression ts e) : IsArguments ts [e]
  | cons {ts us : List Token} {t : Token} {e : Expr} {es : List Expr} (h : IsExpression ts e)
      (hcomma : t.kind = .comma) (hus : IsArguments us es) :
      IsArguments (ts ++ t :: us) (e :: es)

/-- Tokens of an operand of a chain, and the expression that they stand for: a number, a string, a
name, a call without or with arguments, or an expression in parentheses. -/
inductive IsOperand : List Token → Expr → Prop
  | number {t : Token} (ht : t.kind = .number) : IsOperand [t] (.const t.lexeme)
  | string {t : Token} (ht : t.kind = .string) : IsOperand [t] (.const t.lexeme)
  | name {t : Token} (ht : t.kind = .identifier) : IsOperand [t] (.object t.lexeme)
  | emptyCall {t left right : Token} (ht : t.kind = .identifier) (hleft : left.kind = .leftParen)
      (hright : right.kind = .rightParen) :
      IsOperand [t, left, right] (.operation t.lexeme [])
  | call {t left right : Token} {ts : List Token} {args : List Expr} (ht : t.kind = .identifier)
      (hleft : left.kind = .leftParen) (hargs : IsArguments ts args)
      (hright : right.kind = .rightParen) :
      IsOperand (t :: left :: (ts ++ [right])) (.operation t.lexeme args)
  | group {left right : Token} {ts : List Token} {e : Expr} (hleft : left.kind = .leftParen)
      (he : IsExpression ts e) (hright : right.kind = .rightParen) :
      IsOperand (left :: (ts ++ [right])) e

/-- What is an expression on its own is read as this expression in front of a comma or a closing
parenthesis. -/
theorem IsExpression.reads {ts : List Token} {e : Expr} (h : IsExpression ts e) {t : Token}
    (ht : t.kind = .comma ∨ t.kind = .rightParen) (finish : Position) (rest : List Token) :
    ∃ hlt, expr finish 0 (ts ++ t :: rest) = .ok ⟨(e, t :: rest), hlt⟩ := by
  obtain ⟨finish', h', hexpr⟩ := h
  exact expr_extends 0 ts (stops_of_list rest ht) e [] h' hexpr

theorem IsExpression.ne_nil {ts : List Token} {e : Expr} (h : IsExpression ts e) : ts ≠ [] := by
  rintro rfl
  obtain ⟨_, h, _⟩ := h
  exact Nat.not_lt_zero _ h

theorem IsExpression.head_ne {t : Token} {ts : List Token} {e : Expr}
    (h : IsExpression (t :: ts) e) : t.kind ≠ .rightParen := by
  intro ht
  obtain ⟨finish, hlt, hexpr⟩ := h
  rw [expr, operand.eq_def] at hexpr
  simp only [ht] at hexpr
  cases hexpr

theorem IsArguments.head {ts : List Token} {es : List Expr} (h : IsArguments ts es) :
    ∃ t us, ts = t :: us ∧ t.kind ≠ .rightParen := by
  cases h with
  | last h =>
      obtain ⟨t, us, rfl⟩ := List.exists_cons_of_ne_nil h.ne_nil
      exact ⟨t, us, rfl, h.head_ne⟩
  | cons h hcomma hus =>
      obtain ⟨t, us, rfl⟩ := List.exists_cons_of_ne_nil h.ne_nil
      exact ⟨t, _, rfl, h.head_ne⟩

theorem IsArguments.commaItems_reads {ts : List Token} {es : List Expr} (h : IsArguments ts es)
    {n : Nat} (finish : Position) (context : String) {right : Token}
    (hright : right.kind = .rightParen) (rest : List Token) {whole : List Token}
    (hwhole : ts ++ right :: rest = whole) (hn : whole.length ≤ n) :
    ∃ hlt, commaItems finish .rightParen context (fun us _ => expr finish 0 us) whole hn =
      .ok ⟨(es, rest), hlt⟩ := by
  induction h generalizing whole with
  | last h =>
      subst hwhole
      obtain ⟨hlt, hexpr⟩ := h.reads (.inr hright) finish rest
      refine ⟨by simp only [List.length_append, List.length_cons]; omega, ?_⟩
      rw [commaItems]
      dsimp only
      rw [hexpr, ok_bind]
      dsimp only
      rw [skip_of_ne (by simp [hright])]
      dsimp only
      rw [if_neg Bool.false_ne_true, need, if_pos hright, ok_bind]
  | @cons ts us t e es h hcomma hus ih =>
      rw [List.append_assoc, List.cons_append] at hwhole
      subst hwhole
      have hbound : (us ++ right :: rest).length ≤ n := by
        rw [List.length_append, List.length_cons] at hn
        omega
      obtain ⟨hlt, hexpr⟩ := h.reads (.inl hcomma) finish (us ++ right :: rest)
      obtain ⟨hlt', hitems⟩ := ih rfl hbound
      refine ⟨by simp only [List.length_append, List.length_cons]; omega, ?_⟩
      rw [commaItems]
      dsimp only
      rw [hexpr, ok_bind]
      dsimp only
      rw [skip, if_pos hcomma]
      dsimp only
      rw [if_pos rfl, hitems, ok_bind]

theorem IsArguments.commaList_reads {ts : List Token} {es : List Expr} (h : IsArguments ts es)
    (finish : Position) (context : String) {right : Token} (hright : right.kind = .rightParen)
    (rest : List Token) :
    ∃ hlt, commaList finish .rightParen context (ts ++ right :: rest)
      (fun us _ => expr finish 0 us) = .ok ⟨(es, rest), hlt⟩ := by
  obtain ⟨hlt, hitems⟩ := h.commaItems_reads finish context hright rest rfl (Nat.le_refl _)
  obtain ⟨u, us, rfl, hu⟩ := h.head
  exact ⟨hlt, (if_neg hu).trans hitems⟩

/-- An operand is read as what it stands for, unless it is a name and a parenthesis follows. -/
theorem IsOperand.reads {ts : List Token} {e : Expr} (h : IsOperand ts e) (finish : Position)
    {rest : List Token} (hrest : ∀ t ∈ rest.head?, t.kind ≠ .leftParen) :
    ∃ hlt, operand finish (ts ++ rest) = .ok ⟨(e, rest), hlt⟩ := by
  cases h with
  | @number t ht =>
      obtain ⟨kind, lexeme, p⟩ := t
      obtain rfl : kind = .number := ht
      exact ⟨Nat.lt_succ_self _, by rw [operand.eq_def]; rfl⟩
  | @string t ht =>
      obtain ⟨kind, lexeme, p⟩ := t
      obtain rfl : kind = .string := ht
      exact ⟨Nat.lt_succ_self _, by rw [operand.eq_def]; rfl⟩
  | @name t ht =>
      obtain ⟨kind, lexeme, p⟩ := t
      obtain rfl : kind = .identifier := ht
      refine ⟨Nat.lt_succ_self _, ?_⟩
      rw [operand.eq_def]
      cases rest with
      | nil => rfl
      | cons u rest => exact if_neg (hrest u rfl)
  | @emptyCall t left right ht hleft hright =>
      obtain ⟨kind, lexeme, p⟩ := t
      obtain rfl : kind = .identifier := ht
      refine ⟨by simp only [List.length_append, List.length_cons]; omega, ?_⟩
      rw [operand.eq_def]
      dsimp only [List.cons_append, List.nil_append]
      rw [if_pos hleft, commaList, if_pos hright, ok_bind]
  | @call t left right ts args ht hleft hargs hright =>
      obtain ⟨kind, lexeme, p⟩ := t
      obtain rfl : kind = .identifier := ht
      obtain ⟨hlt, hlist⟩ := hargs.commaList_reads finish "to close arguments" hright rest
      have hts : ⟨.identifier, lexeme, p⟩ :: left :: (ts ++ [right]) ++ rest =
          (⟨.identifier, lexeme, p⟩ : Token) :: left :: (ts ++ right :: rest) := by simp
      rw [hts]
      refine ⟨by simp only [List.length_append, List.length_cons]; omega, ?_⟩
      rw [operand.eq_def]
      dsimp only
      rw [if_pos hleft, hlist, ok_bind]
  | @group left right ts e hleft he hright =>
      obtain ⟨kind, lexeme, p⟩ := left
      obtain rfl : kind = .leftParen := hleft
      obtain ⟨hlt, hexpr⟩ := he.reads (.inr hright) finish rest
      have hts : ⟨.leftParen, lexeme, p⟩ :: (ts ++ [right]) ++ rest =
          (⟨.leftParen, lexeme, p⟩ : Token) :: (ts ++ right :: rest) := by simp
      rw [hts]
      refine ⟨by simp only [List.length_append, List.length_cons]; omega, ?_⟩
      rw [operand.eq_def]
      dsimp only
      rw [hexpr, ok_bind]
      dsimp only
      rw [need, if_pos hright, ok_bind]

/-- An operand of a chain. -/
structure Operand where
  tokens : List Token
  value : Expr
  isOperand : IsOperand tokens value

/-- An operator of a chain. -/
structure Sign where
  token : Token
  operator : BinaryOperator
  isOperator : binaryOperator? token.kind = some operator

/-- Operands with operators between them. -/
@[ext]
structure Chain where
  first : Operand
  links : List (Sign × Operand)

def linkTokens (links : List (Sign × Operand)) : List Token :=
  links.flatMap fun link => link.1.token :: link.2.tokens

def Chain.tokens (chain : Chain) : List Token := chain.first.tokens ++ linkTokens chain.links

/-- A tree of operators over operands. -/
inductive Tree where
  | leaf (a : Operand)
  | node (left : Tree) (sign : Sign) (right : Tree)

namespace Tree

/-- The leaves and the operators of a tree, from left to right. -/
def chain : Tree → Chain
  | leaf a => ⟨a, []⟩
  | node left sign right =>
    ⟨left.chain.first, left.chain.links ++ (sign, right.chain.first) :: right.chain.links⟩

/-- The expression that a tree stands for. -/
def expr : Tree → Expr
  | leaf a => a.value
  | node left sign right => .operation sign.operator.name [left.expr, right.expr]

/-- The operator at the root of a tree with more than a leaf. -/
def sign? : Tree → Option Sign
  | leaf _ => none
  | node _ sign _ => some sign

/-- Whether every operator of a tree binds its operands as it asks to: an operator at its left binds
at least as tightly, and one at its right more tightly; for powers it is the other way round. -/
def IsBound : Tree → Prop
  | leaf _ => True
  | node left sign right =>
    left.IsBound ∧ right.IsBound ∧
    (∀ inner ∈ left.sign?,
      if sign.token.kind = .power then sign.operator.strength < inner.operator.strength
      else sign.operator.strength ≤ inner.operator.strength) ∧
    ∀ inner ∈ right.sign?,
      if sign.token.kind = .power then sign.operator.strength ≤ inner.operator.strength
      else sign.operator.strength < inner.operator.strength

end Tree

theorem strength_of_binaryOperator? {kind : Token.Kind} {op : BinaryOperator}
    (h : binaryOperator? kind = some op) :
    0 < op.strength ∧ (if kind = .power then op.strength = 50 ∧ op.bound = 49
      else op.strength < 50 ∧ op.bound = op.strength) := by
  unfold binaryOperator? at h
  split at h
  all_goals first
    | cases h; decide
    | cases h

namespace Sign

theorem strength_pos (sign : Sign) : 0 < sign.operator.strength :=
  (strength_of_binaryOperator? sign.isOperator).1

theorem bound_le (sign : Sign) : sign.operator.bound ≤ sign.operator.strength := by
  obtain ⟨-, h⟩ := strength_of_binaryOperator? sign.isOperator
  split at h <;> omega

theorem strength_le (sign : Sign) : sign.operator.strength ≤ sign.operator.bound + 1 := by
  obtain ⟨-, h⟩ := strength_of_binaryOperator? sign.isOperator
  split at h <;> omega

theorem left_iff (sign inner : Sign) :
    (if sign.token.kind = .power then sign.operator.strength < inner.operator.strength
      else sign.operator.strength ≤ inner.operator.strength) ↔
      sign.operator.strength ≤ inner.operator.bound := by
  obtain ⟨-, h⟩ := strength_of_binaryOperator? sign.isOperator
  obtain ⟨-, h'⟩ := strength_of_binaryOperator? inner.isOperator
  by_cases hpower : sign.token.kind = .power
  · rw [if_pos hpower] at h ⊢
    split at h' <;> omega
  · rw [if_neg hpower] at h ⊢
    split at h' <;> omega

theorem right_iff (sign inner : Sign) :
    (if sign.token.kind = .power then sign.operator.strength ≤ inner.operator.strength
      else sign.operator.strength < inner.operator.strength) ↔
      sign.operator.bound < inner.operator.strength := by
  obtain ⟨-, h⟩ := strength_of_binaryOperator? sign.isOperator
  obtain ⟨-, h'⟩ := strength_of_binaryOperator? inner.isOperator
  by_cases hpower : sign.token.kind = .power
  · rw [if_pos hpower] at h ⊢
    split at h' <;> omega
  · rw [if_neg hpower] at h ⊢
    split at h' <;> omega

end Sign

namespace Tree

theorem isBound_node_iff {left right : Tree} {sign : Sign} :
    (node left sign right).IsBound ↔ left.IsBound ∧ right.IsBound ∧
      (∀ inner ∈ left.sign?, sign.operator.strength ≤ inner.operator.bound) ∧
      ∀ inner ∈ right.sign?, sign.operator.bound < inner.operator.strength := by
  simp only [IsBound, Sign.left_iff, Sign.right_iff]

/-- The operators of a tree, from left to right. -/
def signs (t : Tree) : List Sign := t.chain.links.map Prod.fst

theorem signs_node (left : Tree) (sign : Sign) (right : Tree) :
    (node left sign right).signs = left.signs ++ sign :: right.signs := by
  simp [signs, chain]

theorem IsBound.le_bound {t : Tree} (h : t.IsBound) {strength : Nat}
    (hroot : ∀ sign ∈ t.sign?, strength ≤ sign.operator.bound) :
    ∀ sign ∈ t.signs, strength ≤ sign.operator.bound := by
  induction t generalizing strength with
  | leaf a => exact fun _ hsign => absurd hsign List.not_mem_nil
  | node left root right ihleft ihright =>
      obtain ⟨hleft, hright, hlefts, hrights⟩ := isBound_node_iff.1 h
      have hle : strength ≤ root.operator.bound := hroot root rfl
      intro sign hsign
      rw [signs_node, List.mem_append, List.mem_cons] at hsign
      obtain hsign | rfl | hsign := hsign
      · have := ihleft hleft hlefts sign hsign
        have := root.bound_le
        omega
      · exact hle
      · refine ihright hright (fun inner hinner => ?_) sign hsign
        have := hrights inner hinner
        have := inner.strength_le
        omega

theorem IsBound.bound_lt {t : Tree} (h : t.IsBound) {bound : Nat}
    (hroot : ∀ sign ∈ t.sign?, bound < sign.operator.strength) :
    ∀ sign ∈ t.signs, bound < sign.operator.strength := by
  induction t generalizing bound with
  | leaf a => exact fun _ hsign => absurd hsign List.not_mem_nil
  | node left root right ihleft ihright =>
      obtain ⟨hleft, hright, hlefts, hrights⟩ := isBound_node_iff.1 h
      have hlt : bound < root.operator.strength := hroot root rfl
      intro sign hsign
      rw [signs_node, List.mem_append, List.mem_cons] at hsign
      obtain hsign | rfl | hsign := hsign
      · refine ihleft hleft (fun inner hinner => ?_) sign hsign
        have := hlefts inner hinner
        have := inner.bound_le
        omega
      · exact hlt
      · have := ihright hright hrights sign hsign
        have := root.strength_le
        omega

theorem mem_signs {t : Tree} {before after : List (Sign × Operand)} {sign : Sign} {a : Operand}
    (h : t.chain.links = before ++ (sign, a) :: after) : sign ∈ t.signs := by
  rw [signs, h]
  simp

theorem IsBound.not_before {left left' right right' : Tree} {root root' : Sign}
    {link : Sign × Operand} {mid : List (Sign × Operand)}
    (h : (node left root right).IsBound) (h' : (node left' root' right').IsBound)
    (hleft : left'.chain.links = left.chain.links ++ link :: mid)
    (hright : (root, right.chain.first) :: right.chain.links =
      link :: mid ++ (root', right'.chain.first) :: right'.chain.links) : False := by
  obtain ⟨-, hbound, -, hrights⟩ := isBound_node_iff.1 h
  obtain ⟨hbound', -, hlefts, -⟩ := isBound_node_iff.1 h'
  obtain ⟨rfl, hlinks⟩ := List.cons.inj hright
  have := hbound.bound_lt hrights root' (mem_signs hlinks)
  have := hbound'.le_bound hlefts root (mem_signs hleft)
  omega

theorem IsBound.split_eq {left left' right right' : Tree} {root root' : Sign}
    (h : (node left root right).IsBound) (h' : (node left' root' right').IsBound)
    (heq : (node left root right).chain.links = (node left' root' right').chain.links) :
    left.chain.links = left'.chain.links ∧
      (root, right.chain.first) :: right.chain.links =
        (root', right'.chain.first) :: right'.chain.links := by
  rcases List.append_eq_append_iff.1 heq with ⟨mid, hleft, hright⟩ | ⟨mid, hleft, hright⟩
  · cases mid with
    | nil => exact ⟨by rw [hleft, List.append_nil], hright⟩
    | cons link mid => exact (h.not_before h' hleft hright).elim
  · cases mid with
    | nil => exact ⟨by rw [hleft, List.append_nil], hright.symm⟩
    | cons link mid => exact (h'.not_before h hleft hright).elim

theorem IsBound.eq_of_chain_eq {t t' : Tree} (h : t.IsBound) (h' : t'.IsBound)
    (heq : t.chain = t'.chain) : t = t' := by
  have hlinks := congrArg Chain.links heq
  induction t generalizing t' with
  | leaf a =>
      cases t' with
      | leaf a' =>
          obtain rfl : a = a' := congrArg Chain.first heq
          rfl
      | node left' root' right' => simp [chain] at hlinks
  | node left root right ihleft ihright =>
      cases t' with
      | leaf a' => simp [chain] at hlinks
      | node left' root' right' =>
          obtain ⟨hlefts, hrights⟩ := h.split_eq h' hlinks
          obtain ⟨hleft, hright, -⟩ := isBound_node_iff.1 h
          obtain ⟨hleft', hright', -⟩ := isBound_node_iff.1 h'
          have hfirst : (node left root right).chain.first = (node left' root' right').chain.first :=
            congrArg Chain.first heq
          simp only [List.cons.injEq, Prod.mk.injEq] at hrights
          obtain ⟨⟨rfl, hsecond⟩, hrights⟩ := hrights
          rw [ihleft hleft hleft' (Chain.ext hfirst hlefts) hlefts,
            ihright hright hright' (Chain.ext hsecond hrights) hrights]

end Tree

theorem linkTokens_cons (sign : Sign) (a : Operand) (links : List (Sign × Operand)) :
    linkTokens ((sign, a) :: links) = sign.token :: (a.tokens ++ linkTokens links) := by
  simp [linkTokens]

theorem head_linkTokens_ne (links : List (Sign × Operand)) :
    ∀ t ∈ (linkTokens links).head?, t.kind ≠ .leftParen := by
  cases links with
  | nil => exact fun _ h => nomatch h
  | cons link links =>
      rintro t ht hparen
      obtain rfl : link.1.token = t := by simpa [linkTokens] using ht
      have hoperator := link.1.isOperator
      rw [hparen] at hoperator
      cases hoperator

/-- Whether the first operator of what is left of a chain binds no more tightly than a bound. -/
def EndsBelow (bound : Nat) (links : List (Sign × Operand)) : Prop :=
  ∀ link ∈ links.head?, link.1.operator.strength ≤ bound

/-- A tree of the front of a chain that takes the operators above a bound, and what is left of the
chain. -/
structure IsFront (bound : Nat) (chain : Chain) (tree : Tree) (rest : List (Sign × Operand)) :
    Prop where
  isBound : tree.IsBound
  bound_lt : ∀ sign ∈ tree.sign?, bound < sign.operator.strength
  first_eq : tree.chain.first = chain.first
  links_eq : tree.chain.links ++ rest = chain.links
  endsBelow : EndsBelow bound rest

mutual

theorem expr_isFront (finish : Position) (bound : Nat) (first : Operand)
    (links : List (Sign × Operand)) :
    ∃ tree rest hlt, IsFront bound ⟨first, links⟩ tree rest ∧
      expr finish bound (first.tokens ++ linkTokens links) =
        .ok ⟨(tree.expr, linkTokens rest), hlt⟩ := by
  obtain ⟨hlt, hoperand⟩ := first.isOperand.reads finish (head_linkTokens_ne links)
  obtain ⟨tree, rest, hle, hfront, hoperators⟩ :=
    operators_isFront finish bound (.leaf first) links trivial
      (fun _ h => nomatch h) (fun _ h => nomatch h)
  refine ⟨tree, rest, Nat.lt_of_le_of_lt hle hlt, hfront, ?_⟩
  rw [Tree.expr] at hoperators
  rw [expr, hoperand, ok_bind]
  dsimp only
  rw [hoperators, ok_bind]
termination_by (links.length, 1)

theorem operators_isFront (finish : Position) (bound : Nat) (left : Tree)
    (links : List (Sign × Operand)) (hleft : left.IsBound)
    (hbound : ∀ sign ∈ left.sign?, bound < sign.operator.strength)
    (hends : ∀ sign ∈ left.sign?, EndsBelow sign.operator.bound links) :
    ∃ tree rest hle,
      IsFront bound ⟨left.chain.first, left.chain.links ++ links⟩ tree rest ∧
      operators finish bound left.expr (linkTokens links) =
        .ok ⟨(tree.expr, linkTokens rest), hle⟩ := by
  match links with
  | [] =>
      refine ⟨left, [], Nat.le_refl _, ⟨hleft, hbound, rfl, rfl, fun _ h => nomatch h⟩, ?_⟩
      rw [linkTokens, List.flatMap_nil, operators]
  | (sign, a) :: links =>
      rw [linkTokens_cons, operators]
      split
      · rename_i hnone
        cases sign.isOperator.symm.trans hnone
      · rename_i op hop
        obtain rfl : op = sign.operator := Option.some.inj (hop.symm.trans sign.isOperator)
        by_cases hle : sign.operator.strength ≤ bound
        · refine ⟨left, (sign, a) :: links, by rw [linkTokens_cons], ⟨hleft, hbound, rfl, rfl, ?_⟩, ?_⟩
          · rintro _ ⟨⟩
            exact hle
          · simp only [if_pos hle, linkTokens_cons]
        · obtain ⟨right, rest, hlt, hright, hexpr⟩ :=
            expr_isFront finish sign.operator.bound a links
          have hlinks : right.chain.links ++ rest = links := hright.links_eq
          have hlength : rest.length ≤ links.length := by
            rw [← hlinks, List.length_append]
            exact Nat.le_add_left ..
          have hnode : (Tree.node left sign right).IsBound :=
            Tree.isBound_node_iff.2 ⟨hleft, hright.isBound,
              fun inner hinner => hends inner hinner (sign, a) rfl, hright.bound_lt⟩
          obtain ⟨tree, rest', hle', hfront, hoperators⟩ :=
            operators_isFront finish bound (.node left sign right) rest hnode
              (by rintro _ ⟨⟩; exact Nat.lt_of_not_le hle)
              (by rintro _ ⟨⟩; exact hright.endsBelow)
          have hfirst : right.chain.first = a := hright.first_eq
          have hchain : (⟨(Tree.node left sign right).chain.first,
              (Tree.node left sign right).chain.links ++ rest⟩ : Chain) =
                ⟨left.chain.first, left.chain.links ++ (sign, a) :: links⟩ := by
            simp [Tree.chain, hfirst, ← hlinks]
          refine ⟨tree, rest', (hle'.trans_lt hlt).le.trans (Nat.le_succ _), hchain ▸ hfront, ?_⟩
          rw [Tree.expr] at hoperators
          simp only [if_neg hle]
          rw [hexpr, ok_bind]
          dsimp only
          rw [hoperators, ok_bind]
termination_by (links.length, 0)

end

theorem IsFront.rest_eq_nil {chain : Chain} {tree : Tree} {rest : List (Sign × Operand)}
    (h : IsFront 0 chain tree rest) : rest = [] := by
  cases rest with
  | nil => rfl
  | cons link rest => exact absurd (h.endsBelow link rfl) (Nat.not_le.2 link.1.strength_pos)

theorem inputOf_of_tokenize {source : String} {tokens : List Token} {last : Token}
    (h : tokenize source = .ok (tokens ++ [last])) :
    inputOf source = .ok (tokens, last.position) := by
  rw [inputOf, h, ok_bind, List.dropLast_concat, List.getLast?_concat]
  rfl

end Parser

open Formulary.Parser

/-- A chain of operands and operators is read as the one tree that strength and side allow: its
leaves and operators are the chain, an operator at the left of another binds at least as tightly as
this one, and one at its right more tightly, and for powers it is the other way round. -/
theorem Expr.exists_tree_of_chain {source : String} {chain : Chain} {last : Token}
    (h : tokenize source = .ok (chain.tokens ++ [last])) :
    ∃ tree : Tree, Expr.parse source = .ok tree.expr ∧ tree.chain = chain ∧ tree.IsBound ∧
      ∀ tree' : Tree, tree'.chain = chain → tree'.IsBound → tree' = tree := by
  obtain ⟨tree, rest, hlt, hfront, hexpr⟩ :=
    expr_isFront last.position 0 chain.first chain.links
  obtain rfl := hfront.rest_eq_nil
  have hchain : tree.chain = chain := by
    have hlinks := hfront.links_eq
    rw [List.append_nil] at hlinks
    exact Chain.ext hfront.first_eq hlinks
  refine ⟨tree, ?_, hchain, hfront.isBound, fun tree' hchain' hbound' => ?_⟩
  · have hread : Parser.expr last.position 0 chain.tokens = .ok ⟨(tree.expr, []), hlt⟩ := hexpr
    rw [Expr.parse, inputOf_of_tokenize h, ok_bind]
    dsimp only
    rw [hread, ok_bind]
    rfl
  · exact hbound'.eq_of_chain_eq hfront.isBound (hchain'.trans hchain.symm)

/-- The chain `1-(b+c)^f()^2`. -/
def differenceOfPowers : Chain where
  first := ⟨[⟨.number, "1", ⟨1, 1⟩⟩], .const "1", .number rfl⟩
  links := [
    (⟨⟨.minus, "-", ⟨1, 2⟩⟩, ⟨"minus", 30, false⟩, rfl⟩,
      ⟨[⟨.leftParen, "(", ⟨1, 3⟩⟩, ⟨.identifier, "b", ⟨1, 4⟩⟩, ⟨.plus, "+", ⟨1, 5⟩⟩,
        ⟨.identifier, "c", ⟨1, 6⟩⟩, ⟨.rightParen, ")", ⟨1, 7⟩⟩],
        .operation "plus" [.object "b", .object "c"],
        @IsOperand.group _ _ [⟨.identifier, "b", ⟨1, 4⟩⟩, ⟨.plus, "+", ⟨1, 5⟩⟩,
          ⟨.identifier, "c", ⟨1, 6⟩⟩] _ rfl ⟨.start, by decide, by cbv⟩ rfl⟩),
    (⟨⟨.power, "^", ⟨1, 8⟩⟩, ⟨"power", 50, true⟩, rfl⟩,
      ⟨[⟨.identifier, "f", ⟨1, 9⟩⟩, ⟨.leftParen, "(", ⟨1, 10⟩⟩, ⟨.rightParen, ")", ⟨1, 11⟩⟩],
        .operation "f" [], .emptyCall rfl rfl rfl⟩),
    (⟨⟨.power, "^", ⟨1, 12⟩⟩, ⟨"power", 50, true⟩, rfl⟩,
      ⟨[⟨.number, "2", ⟨1, 13⟩⟩], .const "2", .number rfl⟩)]

theorem Expr.exists_tree_of_differenceOfPowers :
    tokenize "1-(b+c)^f()^2" =
      .ok (differenceOfPowers.tokens ++ [⟨.endOfInput, "", ⟨1, 14⟩⟩]) ∧
    ∃ tree : Tree, Expr.parse "1-(b+c)^f()^2" = .ok tree.expr ∧ tree.chain = differenceOfPowers ∧
      tree.IsBound ∧
      ∀ tree' : Tree, tree'.chain = differenceOfPowers → tree'.IsBound → tree' = tree :=
  have htokens : tokenize "1-(b+c)^f()^2" =
      .ok (differenceOfPowers.tokens ++ [⟨.endOfInput, "", ⟨1, 14⟩⟩]) := by cbv
  ⟨htokens, Expr.exists_tree_of_chain htokens⟩

end Formulary
