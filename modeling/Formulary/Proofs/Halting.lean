import Formulary.Proofs.Chains
import Formulary.Proofs.Layout
import Formulary.Proofs.Tracking

namespace Formulary.Parser

section

variable (t u : Token) (us rest : List Token)

theorem length_cons_lt : (u :: us).length < (t :: u :: us).length := Nat.lt_succ_self _

theorem length_lt_cons_cons : us.length < (t :: u :: us).length :=
  (Nat.lt_succ_self _).trans (length_cons_lt t u us)

theorem length_lt_cons_of_lt (h : rest.length < (u :: us).length) :
    rest.length < (t :: u :: us).length :=
  h.trans (length_cons_lt t u us)

theorem length_lt_of_lt (h : rest.length < us.length) : rest.length < (t :: u :: us).length :=
  h.trans (length_lt_cons_cons t u us)

end

section

variable {ts : List Token} {last : Token} {v : Visit} {α β : Type} {p : α × List Token → Prop}
  {i : Nat} {us : List Token} {t : Token} (hend : EndsOnce ts last)

include hend

omit hend in
theorem tracks_commaItems {list : Listing} {n : Nat} (h : At ts i us)
    (hn : us.length ≤ n) (hv : v.index < i) :
    Tracks ts last v anything (Reader.call (.items list)) i
      (commaItems last.position .rightParen list.context (fun vs _ => list.read last.position vs)
        us hn) :=
  tracks_call h (fun _ hr => hr ⟨n, hn⟩) (.inl hv)

theorem tracks_commaList (list : Listing) (h : At ts i us) (hv : v.index < i) :
    Tracks ts last v anything (Reader.commaList (ts ++ [last]) list) i
      (commaList last.position .rightParen list.context us
        fun vs _ => list.read last.position vs) := by
  match us with
  | [] => exact .go (run_accept_last hend h) (tracks_commaItems h (Nat.le_refl _) hv)
  | t :: us =>
      rw [commaList]
      refine .accept_cons hend h (fun hclose hnext => ?_) fun hclose => ?_
      · rw [if_pos hclose]
        exact .pure trivial hnext
      · rw [if_neg hclose]
        exact tracks_commaItems h (Nat.le_refl _) hv

/-- What is behind a name: arguments, of which something is built, or nothing of the kind. -/
def application (finish : Position) (list : Listing) (bare : α) (build : List list.Item → α)
    (t : Token) (us : List Token) : Step α (t :: us) :=
  match us with
  | [] => .ok ⟨(bare, []), Nat.zero_lt_one⟩
  | u :: rest =>
    if u.kind = .leftParen then do
      let ⟨(args, rest'), hargs⟩ ← commaList finish .rightParen list.context rest
        fun vs _ => list.read finish vs
      .ok ⟨(build args, rest'), length_lt_of_lt t u rest rest' hargs⟩
    else .ok ⟨(bare, u :: rest), length_cons_lt t u rest⟩

theorem tracks_application (list : Listing) {bare : α} {build : List list.Item → α}
    (h : At ts i (t :: us)) (hv : v.index ≤ i) :
    Tracks ts last v anything (Reader.application (ts ++ [last]) list) i
      (application last.position list bare build t us) := by
  rw [Reader.application]
  refine .go (run_advance h) ?_
  match us with
  | [] => exact .go (run_accept_last hend h.next) (.pure trivial h.next)
  | u :: us =>
      refine .accept_cons hend h.next (fun hopen hnext => ?_) fun hopen => ?_
      · rw [application, if_pos hopen]
        exact .end_with (tracks_commaList hend list hnext (by omega)) fun _ _ _ =>
          ⟨_, _, rfl, trivial⟩
      · rw [application, if_neg hopen]
        exact .pure trivial h.next

theorem tracks_typeExpr (h : At ts i us) :
    Tracks ts last ⟨.typeExpr, i⟩ anything (Reader.typeExpr (ts ++ [last])) i
      (typeExpr last.position us) := by
  rw [typeExpr]
  refine .call h (fun _ hr => hr)
    (.inr ⟨rfl, (by decide : Routine.typeAtom.number < Routine.typeExpr.number)⟩)
    fun j a rest hp hj => ?_
  dsimp only
  generalize hskip : skip .arrow rest = r
  obtain ⟨⟨b, rest'⟩, hle⟩ := r
  refine .accept hend hj hskip fun j' hj' => .ite (fun _ => ?_) fun _ => .pure trivial hj'
  refine .call_last hj' (fun _ hr => hr) (.inl ?_) fun _ => ⟨_, _, rfl⟩
  grind

theorem tracks_typeAtom (h : At ts i us) :
    Tracks ts last ⟨.typeAtom, i⟩ anything (Reader.typeAtom (ts ++ [last])) i
      (typeAtom last.position us) := by
  rw [typeAtom.eq_def]
  match us with
  | [] =>
      refine .go (run_peek_last h) ?_
      rw [hend.last]
      exact tracks_failHere hend h
  | t :: us =>
      refine .go (run_peek h) ?_
      dsimp only
      cases hkind : t.kind
      case identifier => exact tracks_application hend .typeArgs h (Nat.le_refl i)
      case number =>
        refine .go (run_advance h) ?_
        cases natural? t.lexeme with
        | none => exact rfl
        | some n => exact .pure trivial h.next
      case string => exact .done (run_advance h) trivial h.next
      case leftParen =>
        refine .go (run_advance h) ?_
        refine .call h.next (fun _ hr => hr) (.inl (Nat.lt_succ_self i)) fun j a rest hp hj => ?_
        exact .bind (tracks_need hend hj) fun _ j' a' rest' hp' _ hj' => .pure trivial hj'
      all_goals exact tracks_failHere hend h

theorem tracks_pattern (h : At ts i us) :
    Tracks ts last ⟨.pattern, i⟩ anything (Reader.pattern (ts ++ [last])) i
      (pattern last.position us) := by
  rw [pattern.eq_def]
  match us with
  | [] =>
      refine .go (run_peek_last h) ?_
      rw [hend.last]
      exact tracks_failHere hend h
  | t :: us =>
      refine .go (run_peek h) ?_
      dsimp only
      cases hkind : t.kind
      case underscore => exact .done (run_advance h) trivial h.next
      case number | string => exact .done (run_advance h) trivial h.next
      case minus =>
        refine .go (run_advance h) ?_
        exact .bind (tracks_need hend h.next) fun _ j n rest hp _ hj => .pure trivial hj
      case identifier => exact tracks_application hend .subpatterns h (Nat.le_refl i)
      all_goals exact tracks_failHere hend h

theorem exists_token (h : At ts i (t :: us)) :
    ∃ u, (ts ++ [last])[i + 1]? = some u ∧
      startsWithFactor (t :: us) = (t.kind = .number && u.kind ≠ .power) ∧
      startsWithBuiltin (t :: us) = (t.kind = .identifier && Reader.endsBody u.kind) := by
  match us with
  | [] =>
      refine ⟨last, h.next.getElem?_last, ?_, ?_⟩
      · simp [startsWithFactor, hend.last]
      · simp [startsWithBuiltin, Reader.endsBody, hend.last]
  | u :: us =>
      have hu := hend.others u h.next.mem
      refine ⟨u, h.next.getElem?, rfl, ?_⟩
      simp [startsWithBuiltin, Reader.endsBody, hu]

omit hend in
theorem tracks_expr (bound : Nat) (h : At ts i us) :
    Tracks ts last ⟨.expr bound, i⟩ anything (Reader.expr bound) i
      (expr last.position bound us) := by
  rw [expr]
  refine .call h (fun _ hr => hr)
    (.inr ⟨rfl, (by decide : Routine.operand.number < (Routine.expr 0).number)⟩)
    fun j left rest hp hj => ?_
  refine .call_last hj (fun _ hr => hr left) (.inl ?_) fun _ => ⟨_, _, rfl⟩
  grind

theorem tracks_operators (bound : Nat) (left : Expr) (h : At ts i us) :
    Tracks ts last ⟨.operators bound, i⟩ anything (Reader.operators (ts ++ [last]) bound) i
      (operators last.position bound left us) := by
  rw [operators.eq_def]
  match us with
  | [] =>
      refine .go (run_peek_last h) ?_
      rw [hend.last]
      exact .pure trivial h
  | t :: us =>
      refine .go (run_peek h) ?_
      dsimp only
      cases binaryOperator? t.kind with
      | none => exact .pure trivial h
      | some op =>
          refine .ite (fun _ => .pure trivial h) fun _ => .go (run_advance h) ?_
          refine .call h.next (fun _ hr => hr) (.inl (Nat.lt_succ_self i))
            fun j right rest hp hj => ?_
          refine .call_last hj (fun _ hr => hr _) (.inl ?_) fun _ => ⟨_, _, rfl⟩
          grind

omit hend in
theorem expr_nil (finish : Position) (bound : Nat) :
    expr finish bound [] = failAt finish .expectedExpression [] := by
  rw [expr, operand]
  rfl

/-- What is behind a minus: a number that is no base of a power, or what is negated. -/
def negation (finish : Position) (t : Token) (us : List Token) : Step Expr (t :: us) :=
  match us with
  | [] => failAt finish .expectedExpression []
  | n :: rest =>
    if startsWithFactor (n :: rest) then
      .ok ⟨(.const ("-" ++ n.lexeme), rest), length_lt_cons_cons t n rest⟩
    else do
      let ⟨(e, rest'), he⟩ ← expr finish negationStrength (n :: rest)
      .ok ⟨(.operation "negate" [e], rest'), length_lt_cons_of_lt t n rest rest' he⟩

theorem tracks_negation (h : At ts i (t :: us)) (hv : v.index ≤ i) :
    Tracks ts last v anything (Reader.negation (ts ++ [last])) i
      (negation last.position t us) := by
  rw [Reader.negation]
  refine .go (run_advance h) ?_
  match us with
  | [] =>
      refine .go (run_peek_last h.next) ?_
      rw [if_neg (by simp [hend.last])]
      exact .error (tracks_call h.next (fun _ hr => by rwa [Answered, expr_nil] at hr)
        (.inl (Nat.lt_succ_of_le hv)))
  | n :: us =>
      obtain ⟨u, hu, hfactor, -⟩ := exists_token hend h.next
      have hcall : Tracks ts last v anything (Reader.call (.expr negationStrength)) (i + 1)
          (expr last.position negationStrength (n :: us)) :=
        tracks_call h.next (fun _ hr => hr) (.inl (Nat.lt_succ_of_le hv))
      refine .go (run_peek h.next) ?_
      rw [negation, hfactor]
      by_cases hnumber : n.kind = .number
      · rw [if_pos hnumber]
        refine .go (run_peekAhead hu) ?_
        by_cases hpower : u.kind = .power
        · rw [if_pos hpower, if_neg (by simp [hpower])]
          exact .end_with hcall fun _ _ _ => ⟨_, _, rfl, trivial⟩
        · rw [if_neg hpower, if_pos (by simp [hnumber, hpower])]
          refine .go (run_advance h.next) (.go (run_prev h.next) ?_)
          exact .pure trivial h.next.next
      · rw [if_neg hnumber, if_neg (by simp [hnumber])]
        exact .end_with hcall fun _ _ _ => ⟨_, _, rfl, trivial⟩

theorem tracks_operand (h : At ts i us) :
    Tracks ts last ⟨.operand, i⟩ anything (Reader.operand (ts ++ [last])) i
      (operand last.position us) := by
  rw [operand.eq_def]
  match us with
  | [] =>
      refine .go (run_peek_last h) ?_
      rw [hend.last]
      exact tracks_failHere hend h
  | t :: us =>
      refine .go (run_peek h) ?_
      dsimp only
      cases hkind : t.kind
      case number | string => exact .done (run_advance h) trivial h.next
      case minus => exact tracks_negation hend h (Nat.le_refl i)
      case identifier => exact tracks_application hend .args h (Nat.le_refl i)
      case leftParen =>
        refine .go (run_advance h) ?_
        refine .call h.next (fun _ hr => hr) (.inl (Nat.lt_succ_self i))
          fun j a rest hp hj => ?_
        exact .bind (tracks_need hend hj) fun _ j' a' rest' hp' _ hj' => .pure trivial hj'
      case matchWord =>
        dsimp only
        rw [Reader.matching]
        refine .go (run_advance h) ?_
        refine .call h.next (fun _ hr => hr) (.inl (Nat.lt_succ_self i))
          fun j₁ scrutinee rest₁ hp₁ h₁ => ?_
        refine .bind (tracks_need hend h₁) fun _ j₂ _ rest₂ hp₂ _ h₂ => ?_
        dsimp only
        generalize hbar : skip .bar rest₂ = r
        obtain ⟨⟨b, rest₃⟩, hle⟩ := r
        refine .accept hend h₂ hbar fun j₃ h₃ => ?_
        refine .call_last h₃ (fun _ hr => hr) (.inl ?_) fun _ => ⟨_, _, rfl⟩
        grind
      all_goals exact tracks_failHere hend h

omit hend in
theorem pattern_nil (finish : Position) :
    pattern finish [] = failAt finish .expectedPattern [] := by
  rw [pattern]

theorem tracks_cases (h : At ts i us) :
    Tracks ts last ⟨.cases, i⟩ anything (Reader.cases (ts ++ [last])) i
      (matchCases last.position us) := by
  -- a case starts with its pattern, before any token is read
  have hpattern : i < i ∨ i = i ∧ Routine.pattern.number < Routine.cases.number :=
    .inr ⟨rfl, by decide⟩
  rw [matchCases.eq_def]
  match us with
  | [] =>
      refine .go (run_accept_last hend h) ?_
      exact .bind_error (tracks_call h (fun _ hr => by rwa [Answered, pattern_nil] at hr) hpattern)
  | t :: us =>
      dsimp only
      refine .accept_cons hend h (fun hclose hnext => ?_) fun hclose => ?_
      · rw [if_pos hclose]
        exact .pure trivial hnext
      rw [if_neg hclose]
      refine .call h (fun _ hr => hr) hpattern fun j₁ p rest₁ hp₁ h₁ => ?_
      refine .bind (tracks_need hend h₁) fun _ j₂ _ rest₂ hp₂ _ h₂ => ?_
      refine .call h₂ (fun _ hr => hr) (.inl ?_) fun j₃ body rest₃ hp₃ h₃ => ?_
      · grind
      have hlt : i < j₃ := by grind
      match rest₃ with
      | [] =>
          refine .go (run_accept_last hend h₃) (.go (run_accept_last hend h₃) ?_)
          refine .go (run_peek_last h₃) ?_
          rw [if_neg (by simp [hend.last])]
          exact tracks_failHere hend h₃
      | u :: rest₄ =>
          dsimp only
          refine .accept_cons hend h₃ (fun hbar hnext => ?_) fun hbar => ?_
          · rw [if_pos (Or.inl hbar)]
            exact .call_last hnext (fun _ hr => hr) (.inl (Nat.lt_succ_of_lt hlt))
              fun _ => ⟨_, _, rfl⟩
          refine .accept_cons hend h₃ (fun hsemicolon hnext => ?_) fun hsemicolon =>
            .go (run_peek h₃) ?_
          · rw [if_pos (Or.inr hsemicolon)]
            exact .call_last hnext (fun _ hr => hr) (.inl (Nat.lt_succ_of_lt hlt))
              fun _ => ⟨_, _, rfl⟩
          rw [if_neg (not_or.2 ⟨hbar, hsemicolon⟩)]
          refine .ite (fun hbrace => ?_) fun _ => tracks_failHere hend h₃
          -- the loop goes on at the brace, and ends there
          refine tracks_call h₃ (fun reply hr => ?_) (.inl hlt)
          rw [Answered, matchCases, if_pos hbrace] at hr
          cases reply <;> exact hr

theorem tracks_optionalParens (list : Listing) (h : At ts i us) (hv : v.index < i) :
    Tracks ts last v (fun opened items => opened = items.isSome)
      (Reader.optionalParens (ts ++ [last]) list) i
      (optionalParens last.position list.context us (list.read last.position)) := by
  rw [optionalParens]
  generalize hopen : skip .leftParen us = r
  obtain ⟨⟨b, rest⟩, hle⟩ := r
  refine .accept hend h hopen fun j hj => .ite (fun _ => ?_) fun _ => .pure rfl hj
  refine .bind (tracks_commaList hend list hj ?_) fun _ j' items rest' hp _ hj' => .pure rfl hj'
  grind

theorem tracks_annotated (h : At ts i us) (hv : v.index < i) :
    Tracks ts last v anything (Reader.annotated (ts ++ [last])) i
      (colonType last.position us) := by
  rw [colonType]
  generalize hcolon : skip .colon us = r
  obtain ⟨⟨b, rest⟩, hle⟩ := r
  refine .accept hend h hcolon fun j hj => .ite (fun _ => ?_) fun _ => .pure trivial hj
  refine .call_last hj (fun _ hr => hr) (.inl ?_) fun _ => ⟨_, _, rfl⟩
  grind

theorem tracks_binder {context : String} (h : At ts i us) (hv : v.index ≤ i) :
    Tracks ts last v anything (Reader.binder (ts ++ [last]) context) i
      (binder last.position context us) := by
  rw [binder]
  refine .bind (tracks_identifier hend h) fun _ j name rest hp _ hj => ?_
  refine .end_with (tracks_annotated hend hj ?_) fun _ _ _ => ⟨_, _, rfl, trivial⟩
  grind

theorem tracks_field (h : At ts i us)
    (hv : v.index < i ∨ v.index = i ∧ Routine.typeExpr.number < v.routine.number) :
    Tracks ts last v anything (Reader.field (ts ++ [last])) i (field last.position us) := by
  have hpositional : Tracks ts last v anything (Reader.call .typeExpr) i
      (positionalField last.position us) := by
    rw [positionalField]
    exact .call_last h (fun _ hr => hr) hv fun _ => ⟨_, _, rfl⟩
  rw [Reader.field]
  match us with
  | [] =>
      refine .go (run_peek_last h) ?_
      rw [if_neg (by simp [hend.last])]
      exact hpositional
  | [t] =>
      refine .go (run_peek h) ?_
      split
      · refine .go (run_peekAhead h.next.getElem?_last) ?_
        rw [if_neg (by simp [hend.last])]
        exact hpositional
      · exact hpositional
  | t :: u :: us =>
      refine .go (run_peek h) ?_
      rw [field]
      by_cases hname : t.kind = .identifier
      · rw [if_pos hname]
        refine .go (run_peekAhead h.next.getElem?) ?_
        by_cases hcolon : u.kind = .colon
        · rw [if_pos hcolon, if_pos ⟨hname, hcolon⟩]
          refine .go (run_advance h) (.go (run_advance h.next) ?_)
          refine .call_last h.next.next (fun _ hr => hr) (.inl ?_) fun _ => ⟨_, _, rfl⟩
          omega
        · rw [if_neg hcolon, if_neg fun hand => hcolon hand.2]
          exact hpositional
      · rw [if_neg hname, if_neg fun hand => hname hand.1]
        exact hpositional

theorem tracks_item (list : Listing) (h : At ts i us) :
    Tracks ts last ⟨.items list, i⟩ anything (Reader.item (ts ++ [last]) list) i
      (list.read last.position us) := by
  -- an item starts where its round of the loop does, before any token is read
  have hearlier : ∀ routine : Routine, routine.number < 5 →
      i < i ∨ i = i ∧ routine.number < (Routine.items list).number := fun _ h => .inr ⟨rfl, h⟩
  cases list with
  | typeParams | structureParams | definitionParams => exact tracks_binder hend h (Nat.le_refl i)
  | bodyParams => exact .bind (tracks_need hend h) fun _ j t rest hp _ hj => .pure trivial hj
  | fields => exact tracks_field hend h (hearlier _ (by decide))
  | implementationArgs | typeArgs => exact tracks_call h (fun _ hr => hr) (hearlier _ (by decide))
  | args => exact tracks_call h (fun _ hr => hr) (hearlier _ (by decide))
  | subpatterns => exact tracks_call h (fun _ hr => hr) (hearlier _ (by decide))

theorem tracks_items (list : Listing) {n : Nat} (h : At ts i us) (hn : us.length ≤ n) :
    Tracks ts last ⟨.items list, i⟩ anything (Reader.items (ts ++ [last]) list) i
      (commaItems last.position .rightParen list.context (fun vs _ => list.read last.position vs)
        us hn) := by
  rw [commaItems]
  refine .bind (tracks_item hend list h) fun _ j x rest hp _ hj => ?_
  dsimp only
  generalize hcomma : skip .comma rest = r
  obtain ⟨⟨b, rest'⟩, hle⟩ := r
  refine .accept hend hj hcomma fun j' hj' => .ite (fun _ => ?_) fun _ => ?_
  · refine .end_with (tracks_commaItems hj' _ ?_) fun _ _ _ => ⟨_, _, rfl, trivial⟩
    grind
  · exact .bind (tracks_need hend hj') fun _ j'' t rest'' hp _ hj'' => .pure trivial hj''

theorem tracks_variant (h : At ts i us) (hv : v.index ≤ i) :
    Tracks ts last v anything (Reader.variant (ts ++ [last])) i (variant last.position us) := by
  rw [variant]
  refine .bind (tracks_identifier hend h) fun _ j name rest hp _ hj => ?_
  refine .bind (tracks_optionalParens hend .fields hj ?_) fun _ j' fields rest' hp' _ hj' =>
    .pure trivial hj'
  grind

theorem tracks_variants (h : At ts i us) :
    Tracks ts last ⟨.variants, i⟩ anything (Reader.variants (ts ++ [last])) i
      (variants last.position us) := by
  rw [variants]
  refine .bind (tracks_variant hend h (Nat.le_refl i)) fun _ j w rest hp _ hj => ?_
  dsimp only
  generalize hbar : skip .bar rest = r
  obtain ⟨⟨b, rest'⟩, hle⟩ := r
  refine .accept hend hj hbar fun j' hj' => .ite (fun _ => ?_) fun _ => .pure trivial hj'
  refine .call_last hj' (fun _ hr => hr) (.inl ?_) fun _ => ⟨_, _, rfl⟩
  grind

theorem tracks_dataType (h : At ts i (t :: us)) (hv : v.index ≤ i) :
    Tracks ts last v anything (Reader.dataType (ts ++ [last])) i (dataType last.position us) := by
  rw [dataType, Reader.dataType]
  refine .go (run_advance h) ?_
  refine .bind (tracks_identifier hend h.next) fun _ j₁ name rest₁ hp₁ _ h₁ => ?_
  refine .bind (tracks_optionalParens hend .typeParams h₁ ?_)
    fun _ j₂ params rest₂ hp₂ _ h₂ => ?_
  · grind
  refine .bind (tracks_need hend h₂) fun _ j₃ _ rest₃ hp₃ _ h₃ => ?_
  dsimp only
  generalize hbar : skip .bar rest₃ = r
  obtain ⟨⟨b, rest₄⟩, hle⟩ := r
  refine .accept hend h₃ hbar fun j₄ h₄ => ?_
  refine .call_last h₄ (fun _ hr => hr) (.inl ?_) fun _ => ⟨_, _, rfl⟩
  grind

theorem tracks_names (h : At ts i us) :
    Tracks ts last ⟨.names, i⟩ anything (Reader.names (ts ++ [last])) i
      (.ok (quantifiedNames us)) := by
  rw [quantifiedNames.eq_def, Reader.names]
  match us with
  | [] =>
      refine .go (run_peek_last h) ?_
      rw [if_neg (by simp [hend.last])]
      exact .pure trivial h
  | t :: us =>
      refine .go (run_peek h) ?_
      dsimp only
      split
      · refine .go (run_advance h) ?_
        generalize hcomma : skip .comma us = r
        obtain ⟨⟨b, rest⟩, hle⟩ := r
        refine .accept hend h.next hcomma fun j hj => ?_
        refine tracks_call hj (fun reply hr => ?_) (.inl ?_)
        · cases reply <;> exact hr
        · grind
      · exact .pure trivial h

omit hend in
theorem isEmpty_quantifiedNames_iff (us : List Token) :
    (quantifiedNames us).1.1.isEmpty = true ↔ (quantifiedNames us).1.2.length = us.length := by
  rw [quantifiedNames.eq_def]
  cases us with
  | nil => simp
  | cons t us =>
      dsimp only
      split
      · generalize skip .comma us = r
        obtain ⟨⟨b, rest⟩, hle⟩ := r
        dsimp only
        generalize quantifiedNames rest = n
        obtain ⟨⟨names, rest'⟩, hle'⟩ := n
        simp only [List.isEmpty_cons, Bool.false_eq_true, List.length_cons, false_iff]
        dsimp only at hle hle'
        omega
      · simp

theorem tracks_quantifiers (h : At ts i us) :
    Tracks ts last ⟨.quantifiers, i⟩ anything (Reader.quantifiers (ts ++ [last])) i
      (quantifiers last.position us) := by
  rw [quantifiers]
  generalize hopen : skip .leftParen us = r
  obtain ⟨⟨b, rest₁⟩, hle⟩ := r
  refine .accept hend h hopen fun j₁ h₁ => .ite (fun hb => ?_) fun _ => ?_
  · refine .go rfl ?_
    have hnames : i < j₁ ∨ i = j₁ ∧ Routine.names.number < Routine.quantifiers.number := by
      grind [Routine.number]
    have hcall : Tracks ts last ⟨.quantifiers, i⟩ anything (Reader.call .names) j₁
        (.ok (quantifiedNames rest₁)) :=
      tracks_call h₁ (fun _ hr => hr) hnames
    have hempty := isEmpty_quantifiedNames_iff rest₁
    dsimp only
    generalize quantifiedNames rest₁ = n at hcall hempty ⊢
    obtain ⟨⟨names, rest₂⟩, hle'⟩ := n
    refine .bind_ok hcall fun _ j₂ _ h₂ => .go rfl ?_
    dsimp only at hempty ⊢
    by_cases hnone : names.isEmpty = true
    · rw [if_pos hnone, if_pos (by grind)]
      exact tracks_failHere hend h₂
    rw [if_neg hnone, if_neg (by grind)]
    refine .bind (tracks_need hend h₂) fun _ j₃ _ rest₃ hp₃ _ h₃ => ?_
    refine .call h₃ (fun _ hr => hr) (.inl ?_) fun j₄ t rest₄ hp₄ h₄ => ?_
    · grind
    refine .bind (tracks_need hend h₄) fun _ j₅ _ rest₅ hp₅ _ h₅ => ?_
    refine .call_last h₅ (fun _ hr => hr) (.inl ?_) fun _ => ⟨_, _, rfl⟩
    grind
  · exact .bind (tracks_need hend h₁) fun _ j₂ t rest₂ hp _ h₂ => .pure trivial h₂

theorem tracks_operationMember (isElement : Bool) (h : At ts i (t :: us)) (hv : v.index ≤ i) :
    Tracks ts last v anything (Reader.operationMember (ts ++ [last])) i
      (operationMember last.position isElement us) := by
  rw [operationMember, Reader.operationMember]
  refine .go (run_advance h) ?_
  refine .bind (tracks_identifier hend h.next) fun _ j₁ name rest₁ hp₁ _ h₁ => ?_
  refine .bind (tracks_need hend h₁) fun _ j₂ _ rest₂ hp₂ _ h₂ => ?_
  refine .call_last h₂ (fun _ hr => hr) (.inl ?_) fun _ => ⟨_, _, rfl⟩
  grind

theorem tracks_lawMember (h : At ts i (t :: us)) (hv : v.index ≤ i) :
    Tracks ts last v anything (Reader.lawMember (ts ++ [last])) i (lawMember last.position us) := by
  rw [lawMember, Reader.lawMember]
  refine .go (run_advance h) ?_
  refine .bind (tracks_identifier hend h.next) fun _ j₁ name rest₁ hp₁ _ h₁ => ?_
  refine .bind (tracks_need hend h₁) fun _ j₂ _ rest₂ hp₂ _ h₂ => ?_
  dsimp only
  generalize hquantified : skip .forallWord rest₂ = r
  obtain ⟨⟨b, rest₃⟩, hle⟩ := r
  refine .accept hend h₂ hquantified fun j₃ h₃ => .ite (fun _ => ?_) fun _ => ?_
  · refine .call h₃ (fun _ hr => hr) (.inl ?_) fun j₄ vars rest₄ hp₄ h₄ => ?_
    · grind
    refine .call_last h₄ (fun _ hr => hr) (.inl ?_) fun _ => ⟨_, _, rfl⟩
    grind
  · refine .call_last h₃ (fun _ hr => hr) (.inl ?_) fun _ => ⟨_, _, rfl⟩
    grind

theorem tracks_members (structureName : String) (h : At ts i us) :
    Tracks ts last ⟨.members structureName, i⟩ anything
      (Reader.members (ts ++ [last]) structureName) i (members last.position structureName us) := by
  rw [members.eq_def, Reader.members]
  match us with
  | [] =>
      refine .go (run_accept_last hend h) (.go (run_accept_last hend h) (.go (run_peek_last h) ?_))
      rw [hend.last]
      exact tracks_failHere hend h
  | t :: us =>
      dsimp only
      refine .accept_cons hend h (fun hclose hnext => ?_) fun hclose => ?_
      · rw [hclose]
        exact .pure trivial hnext
      refine .accept_cons hend h (fun hsemicolon hnext => ?_) fun hsemicolon => .go (run_peek h) ?_
      · rw [hsemicolon]
        exact .call_last hnext (fun _ hr => hr) (.inl (Nat.lt_succ_self i)) fun _ => ⟨_, _, rfl⟩
      cases hkind : t.kind
      case rightBrace => exact absurd hkind hclose
      case semicolon => exact absurd hkind hsemicolon
      case operationWord | elementWord =>
        refine .bind (tracks_operationMember hend _ h (Nat.le_refl i)) fun _ j m rest hp _ hj => ?_
        refine .call_last hj (fun _ hr => hr) (.inl ?_) fun _ => ⟨_, _, rfl⟩
        grind
      case axiomWord =>
        refine .bind (tracks_lawMember hend h (Nat.le_refl i)) fun _ j m rest hp _ hj => ?_
        refine .call_last hj (fun _ hr => hr) (.inl ?_) fun _ => ⟨_, _, rfl⟩
        grind
      all_goals exact tracks_failHere hend h

theorem tracks_interface (h : At ts i (t :: us)) (hv : v.index ≤ i) :
    Tracks ts last v anything (Reader.interface (ts ++ [last])) i (interface last.position us) := by
  rw [interface, Reader.interface]
  refine .go (run_advance h) ?_
  refine .bind (tracks_identifier hend h.next) fun name j₁ _ rest₁ hp₁ hname h₁ => ?_
  subst hname
  refine .bind (tracks_optionalParens hend .structureParams h₁ ?_)
    fun _ j₂ params rest₂ hp₂ _ h₂ => ?_
  · grind
  refine .bind (tracks_need hend h₂) fun _ j₃ _ rest₃ hp₃ _ h₃ => ?_
  refine .call_last h₃ (fun _ hr => hr) (.inl ?_) fun _ => ⟨_, _, rfl⟩
  grind

theorem tracks_operationBody (h : At ts i (t :: us)) (hv : v.index ≤ i) :
    Tracks ts last v anything (Reader.operationBody (ts ++ [last])) i
      (operationBody last.position us) := by
  rw [operationBody, Reader.operationBody]
  refine .go (run_advance h) ?_
  refine .bind (tracks_identifier hend h.next) fun _ j₁ name rest₁ hp₁ _ h₁ => ?_
  refine .bind (tracks_optionalParens hend .bodyParams h₁ ?_)
    fun hasParams j₂ params rest₂ hp₂ hparams h₂ => ?_
  · grind
  refine .bind (tracks_need hend h₂) fun _ j₃ _ rest₃ hp₃ _ h₃ => ?_
  have hcall : Tracks ts last v anything (Reader.call (.expr 0)) j₃ (expr last.position 0 rest₃) :=
    tracks_call h₃ (fun _ hr => hr) (.inl (by grind))
  dsimp only at hparams ⊢
  subst hparams
  cases params with
  | some params => exact .end_with hcall fun _ _ _ => ⟨_, _, rfl, trivial⟩
  | none =>
      match rest₃ with
      | [] =>
          refine .go (run_peek_last h₃) ?_
          rw [if_neg (by simp [hend.last])]
          exact .end_with hcall fun _ _ _ => ⟨_, _, rfl, trivial⟩
      | u :: rest₃ =>
          obtain ⟨w, hw, -, hbuiltin⟩ := exists_token hend h₃
          rw [hbuiltin]
          refine .go (run_peek h₃) ?_
          by_cases hname : u.kind = .identifier
          · rw [if_pos hname]
            refine .go (run_peekAhead hw) ?_
            by_cases hends : Reader.endsBody w.kind = true
            · rw [if_pos hends, if_pos (by simp [hname, hends])]
              have hadvance : Tracks ts last v anything (Reader.advance (ts ++ [last])) j₃
                  (identifier last.position "for operation name" (u :: rest₃)) := by
                rw [identifier, need, if_pos hname]
                exact .done (run_advance h₃) trivial h₃.next
              exact .end_with hadvance fun _ _ _ => ⟨_, _, rfl, trivial⟩
            · rw [if_neg hends, if_neg (by simp [hends])]
              exact .end_with hcall fun _ _ _ => ⟨_, _, rfl, trivial⟩
          · rw [if_neg hname, if_neg (by simp [hname])]
            exact .end_with hcall fun _ _ _ => ⟨_, _, rfl, trivial⟩

theorem tracks_bodies (structureName : String) (h : At ts i us) :
    Tracks ts last ⟨.bodies structureName, i⟩ anything
      (Reader.bodies (ts ++ [last]) structureName) i
      (operationBodies last.position structureName us) := by
  rw [operationBodies.eq_def, Reader.bodies]
  match us with
  | [] =>
      refine .go (run_accept_last hend h) (.go (run_accept_last hend h) (.go (run_peek_last h) ?_))
      rw [hend.last]
      exact tracks_failHere hend h
  | t :: us =>
      dsimp only
      refine .accept_cons hend h (fun hclose hnext => ?_) fun hclose => ?_
      · rw [hclose]
        exact .pure trivial hnext
      refine .accept_cons hend h (fun hsemicolon hnext => ?_) fun hsemicolon => .go (run_peek h) ?_
      · rw [hsemicolon]
        exact .call_last hnext (fun _ hr => hr) (.inl (Nat.lt_succ_self i)) fun _ => ⟨_, _, rfl⟩
      cases hkind : t.kind
      case rightBrace => exact absurd hkind hclose
      case semicolon => exact absurd hkind hsemicolon
      case operationWord | elementWord =>
        refine .bind (tracks_operationBody hend h (Nat.le_refl i)) fun _ j m rest hp _ hj => ?_
        refine .call_last hj (fun _ hr => hr) (.inl ?_) fun _ => ⟨_, _, rfl⟩
        grind
      all_goals exact tracks_failHere hend h

theorem tracks_implementation (h : At ts i (t :: us)) (hv : v.index ≤ i) :
    Tracks ts last v anything (Reader.implementation (ts ++ [last])) i
      (implementation last.position us) := by
  rw [implementation, Reader.implementation]
  refine .go (run_advance h) ?_
  refine .bind (tracks_identifier hend h.next) fun name j₁ _ rest₁ hp₁ hname h₁ => ?_
  subst hname
  refine .bind (tracks_optionalParens hend .implementationArgs h₁ ?_)
    fun _ j₂ args rest₂ hp₂ _ h₂ => ?_
  · grind
  dsimp only
  generalize hopen : skip .leftBrace rest₂ = r
  obtain ⟨⟨b, rest₃⟩, hle⟩ := r
  refine .accept hend h₂ hopen fun j₃ h₃ => .ite (fun _ => ?_) fun _ => .pure trivial h₃
  refine .call_last h₃ (fun _ hr => hr) (.inl ?_) fun _ => ⟨_, _, rfl⟩
  grind

theorem tracks_definition (h : At ts i (t :: us)) (hv : v.index ≤ i) :
    Tracks ts last v anything (Reader.definition (ts ++ [last])) i
      (definition last.position us) := by
  rw [definition, Reader.definition]
  refine .go (run_advance h) ?_
  refine .bind (tracks_identifier hend h.next) fun name j₁ _ rest₁ hp₁ _ h₁ => ?_
  refine .bind (tracks_optionalParens hend .definitionParams h₁ ?_)
    fun _ j₂ params rest₂ hp₂ _ h₂ => ?_
  · grind
  refine .bind (tracks_annotated hend h₂ ?_) fun _ j₃ result rest₃ hp₃ _ h₃ => ?_
  · grind
  refine .bind (tracks_need hend h₃) fun _ j₄ _ rest₄ hp₄ _ h₄ => ?_
  refine .call_last h₄ (fun _ hr => hr) (.inl ?_) fun _ => ⟨_, _, rfl⟩
  grind

theorem tracks_declaration (h : At ts i us) (hv : v.index ≤ i) :
    Tracks ts last v anything (Reader.declaration (ts ++ [last])) i
      (declaration last.position us) := by
  rw [declaration.eq_def, Reader.declaration]
  match us with
  | [] =>
      refine .go (run_peek_last h) ?_
      rw [hend.last]
      exact tracks_failHere hend h
  | t :: us =>
      refine .go (run_peek h) ?_
      dsimp only
      cases hkind : t.kind
      case dataWord => exact .end_with (tracks_dataType hend h hv) fun _ _ _ => ⟨_, _, rfl, trivial⟩
      case structureWord =>
        exact .end_with (tracks_interface hend h hv) fun _ _ _ => ⟨_, _, rfl, trivial⟩
      case implementsWord =>
        exact .end_with (tracks_implementation hend h hv) fun _ _ _ => ⟨_, _, rfl, trivial⟩
      case defineWord =>
        exact .end_with (tracks_definition hend h hv) fun _ _ _ => ⟨_, _, rfl, trivial⟩
      all_goals exact tracks_failHere hend h

omit hend in
theorem consumed_bind {α β : Type} {p : α × List Token → Prop}
    (step : Except ParseError { r // p r }) (f : { r // p r } → Except ParseError β) :
    consumed (step >>= f) = step >>= fun r => consumed (f r) := by
  cases step <;> rfl

theorem tracks_declarations (h : At ts i us) :
    Tracks ts last ⟨.declarations, i⟩ anything (Reader.declarations (ts ++ [last])) i
      (consumed (declarations last.position us)) := by
  rw [declarations.eq_def, Reader.declarations]
  match us with
  | [] =>
      refine .go (run_peek_last h) ?_
      rw [if_pos hend.last]
      exact .pure trivial h
  | t :: us =>
      refine .go (run_peek h) ?_
      rw [if_neg (hend.others t h.mem)]
      dsimp only
      refine .accept_cons hend h (fun hsemicolon hnext => ?_) fun hsemicolon => ?_
      · rw [if_pos hsemicolon]
        exact tracks_call hnext (fun _ hr => hr) (.inl (Nat.lt_succ_self i))
      rw [if_neg hsemicolon, consumed_bind]
      refine .bind (tracks_declaration hend h (Nat.le_refl i)) fun _ j d rest hp _ hj => ?_
      have hrest : consumed (do return d :: (← declarations last.position rest)) =
          consumed (declarations last.position rest) >>= fun r =>
            .ok ⟨(d :: r.1.1, r.1.2), r.2⟩ := by
        cases declarations last.position rest <;> rfl
      dsimp only
      rw [hrest]
      refine .call_last hj (fun _ hr => hr) (.inl ?_) fun _ => ⟨_, _, rfl⟩
      grind

theorem tracks_toTheEnd {routine : Routine} {cause : ParseError.Found → ParseError.Cause}
    {step : Step α us} (h : At ts i us)
    (hstep : ∀ reply, Answered ts last.position routine us reply → Arrives ts reply step)
    (hbehind : v.index < i ∨ v.index = i ∧ routine.number < v.routine.number) :
    Tracks ts last v anything (Reader.toTheEnd (ts ++ [last]) routine cause) i
      (consumed (step >>= fun r =>
        if r.1.2.isEmpty then return r.1.1 else failAt last.position cause r.1.2)) := by
  rw [Reader.toTheEnd, consumed_bind]
  refine .call h hstep hbehind fun j a rest hp hj => ?_
  match rest with
  | [] =>
      refine .go (run_peek_last hj) ?_
      rw [if_pos hend.last]
      exact .pure trivial hj
  | t :: rest =>
      refine .go (run_peek hj) ?_
      rw [if_neg (hend.others t hj.mem)]
      exact tracks_failHere hend hj

theorem tracks_wholeExpr (h : At ts i us) :
    Tracks ts last ⟨.wholeExpr, i⟩ anything
      (Reader.toTheEnd (ts ++ [last]) (.expr 0) .afterExpression) i
      (consumed (wholeExpr last.position us)) :=
  tracks_toTheEnd hend h (fun _ hr => hr)
    (.inr ⟨rfl, (by decide : (Routine.expr 0).number < Routine.wholeExpr.number)⟩)

theorem tracks_wholeType (h : At ts i us) :
    Tracks ts last ⟨.wholeType, i⟩ anything
      (Reader.toTheEnd (ts ++ [last]) .typeExpr .afterType) i
      (consumed (wholeType last.position us)) :=
  tracks_toTheEnd hend h (fun _ hr => hr)
    (.inr ⟨rfl, (by decide : Routine.typeExpr.number < Routine.wholeType.number)⟩)

omit hend in
theorem Tracks.yields {R : Unit → α → Prop} {step : Except ParseError { r // p r }}
    (h : Tracks ts last v R (v.routine.body (ts ++ [last])) v.index step) :
    (reader (ts ++ [last]) v).Yields (fun w => w.index ≤ ts.length ∧ w.Behind ts v)
      (Visit.Answers ts last.position) (fun reply => Arrives ts reply step) := by
  refine CallTree.YieldsOr.bind h fun reply hreply => ?_
  obtain e | ⟨b, j⟩ := reply <;> obtain e' | r := step
  · exact hreply
  · exact hreply.elim
  · exact hreply.elim
  · exact hreply.2

theorem reader_meets : (reader (ts ++ [last])).Meets (·.index ≤ ts.length)
    (Visit.Answers ts last.position) (Visit.Behind ts) := by
  rintro ⟨routine, i⟩ hi
  have h : At ts i (ts.drop i) := at_drop hi
  cases routine with
  | operand => exact (tracks_operand hend h).yields
  | typeAtom => exact (tracks_typeAtom hend h).yields
  | pattern => exact (tracks_pattern hend h).yields
  | expr bound => exact (tracks_expr bound h).yields
  | typeExpr => exact (tracks_typeExpr hend h).yields
  | items list =>
      have : Nonempty { n // (ts.drop i).length ≤ n } := ⟨⟨_, Nat.le_refl _⟩⟩
      exact .forall fun n => (tracks_items hend list h n.2).yields
  | operators bound =>
      have : Nonempty Expr := ⟨.const ""⟩
      exact .forall fun left => (tracks_operators hend bound left h).yields
  | cases => exact (tracks_cases hend h).yields
  | names => exact (tracks_names hend h).yields
  | quantifiers => exact (tracks_quantifiers hend h).yields
  | variants => exact (tracks_variants hend h).yields
  | members structureName => exact (tracks_members hend structureName h).yields
  | bodies structureName => exact (tracks_bodies hend structureName h).yields
  | declarations => exact (tracks_declarations hend h).yields
  | wholeExpr => exact (tracks_wholeExpr hend h).yields
  | wholeType => exact (tracks_wholeType hend h).yields

/-- What an input is read as is what the cursor says about it. -/
theorem returns_iff (routine : Routine) (a : Except ParseError α)
    (hanswer : ∀ reply, Answered ts last.position routine ts reply → Arrives ts reply (consumed a))
    {reply : Reply} : (reader (ts ++ [last])).Returns ⟨routine, 0⟩ reply ↔
      reply = a.map fun _ => ts.length := by
  have hmeets := reader_meets hend
  have honly (reply : Reply) (hr : (reader (ts ++ [last])).Returns ⟨routine, 0⟩ reply) :
      reply = a.map fun _ => ts.length := by
    have harrives := hanswer reply (hmeets.post_of_returns (Nat.zero_le _) hr)
    obtain e | j := reply <;> obtain e' | a := a
    · exact congrArg Except.error harrives
    · exact harrives.elim
    · exact harrives.elim
    · exact congrArg Except.ok harrives.add_length
  refine ⟨honly reply, fun heq => ?_⟩
  obtain ⟨reply', hr⟩ :=
    (hmeets.terminates (p := ⟨routine, 0⟩) (behind_wellFounded ts) (Nat.zero_le _)).exists_returns
  rw [heq, ← honly reply' hr]
  exact hr

/-- Reading ends, whatever the tokens are. No run reads a token that the list does not have or moves
past the end of input; whenever a procedure is called or a loop goes on within a call of the same or
a round of the same, the cursor has moved on; and what is read, or why reading fails, is what the
steps of reading say. -/
theorem reading_terminates {v : Visit} (hv : v.index ≤ ts.length) :
    let f := reader (ts ++ [last])
    f.Terminates v ∧
      (∀ w, f.Reaches v w → w.index ≤ ts.length ∧
        ∀ w', Relation.TransGen f.Calls w w' → w'.routine.number = w.routine.number →
          w.index < w'.index) ∧
      ∀ reply,
        (f.Returns ⟨.declarations, 0⟩ reply ↔
          reply = (declarations last.position ts).map fun _ => ts.length) ∧
        (f.Returns ⟨.wholeExpr, 0⟩ reply ↔
          reply = (wholeExpr last.position ts).map fun _ => ts.length) ∧
        (f.Returns ⟨.wholeType, 0⟩ reply ↔
          reply = (wholeType last.position ts).map fun _ => ts.length) := by
  intro f
  have hmeets := reader_meets hend
  refine ⟨hmeets.terminates (behind_wellFounded ts) hv, fun w hw => ?_, fun reply => ?_⟩
  · have hindex := hmeets.of_reaches hv hw
    refine ⟨hindex, fun w' hpath hsame => ?_⟩
    obtain ⟨-, hlt | ⟨-, hlt⟩⟩ := hmeets.smaller_of_transGen Visit.Behind.trans hindex hpath
    · exact hlt
    · exact absurd hsame (Nat.ne_of_lt hlt)
  · exact ⟨returns_iff hend .declarations _ fun _ hr => hr,
      returns_iff hend .wholeExpr _ fun _ hr => hr, returns_iff hend .wholeType _ fun _ hr => hr⟩

end

theorem reading_terminates_broken :
    let opened : Token := ⟨.leftParen, "(", ⟨1, 6⟩⟩
    let ts : List Token := [⟨.dataWord, "data", ⟨1, 1⟩⟩, opened]
    let f := reader (ts ++ [⟨.endOfInput, "", ⟨1, 7⟩⟩])
    f.Terminates ⟨.declarations, 0⟩ ∧
      f.Returns ⟨.declarations, 0⟩
        (.error ⟨⟨1, 6⟩, .expected .identifier "after 'data'" (.token opened)⟩) := by
  intro opened ts f
  have hend : EndsOnce ts ⟨.endOfInput, "", ⟨1, 7⟩⟩ := ⟨rfl, by decide⟩
  obtain ⟨hterminates, -, hreturns⟩ := reading_terminates hend (v := ⟨.declarations, 0⟩) (by decide)
  refine ⟨hterminates, (hreturns _).1.2 ?_⟩
  simp [ts, opened, declarations, declaration, dataType, identifier, need, failAt, Except.map]
  rfl

theorem exists_endsOnce_of_tokenize {source : String} {tokens : List Token}
    (h : tokenize source = .ok tokens) : ∃ ts last, tokens = ts ++ [last] ∧ EndsOnce ts last := by
  obtain ⟨pieces, tail, -, -, rfl, hpieces⟩ := Token.exists_pieces_of_tokensFrom h
  refine ⟨_, _, rfl, rfl, fun t ht => ?_⟩
  obtain ⟨piece, hpiece, rfl⟩ := List.mem_map.1 ht
  obtain ⟨front, back, hsplit⟩ := List.append_of_mem hpiece
  exact (hpieces front piece back hsplit).kind_ne

theorem returns_parse {source : String} {tokens : List Token} (h : tokenize source = .ok tokens) :
    (reader tokens).Returns ⟨.declarations, 0⟩
        ((Declaration.parseAll source).map fun _ => tokens.length - 1) ∧
      (reader tokens).Returns ⟨.wholeExpr, 0⟩
        ((Expr.parse source).map fun _ => tokens.length - 1) ∧
      (reader tokens).Returns ⟨.wholeType, 0⟩
        ((TypeExpr.parse source).map fun _ => tokens.length - 1) := by
  obtain ⟨ts, last, rfl, hend⟩ := exists_endsOnce_of_tokenize h
  have hinput := inputOf_of_tokenize h
  rw [parse_declarations_eq, parse_expr_eq, parse_type_eq, hinput, List.length_append,
    List.length_singleton, Nat.add_sub_cancel]
  exact ⟨(returns_iff hend .declarations _ fun _ hr => hr).2 rfl,
    (returns_iff hend .wholeExpr _ fun _ hr => hr).2 rfl,
    (returns_iff hend .wholeType _ fun _ hr => hr).2 rfl⟩

end Formulary.Parser
