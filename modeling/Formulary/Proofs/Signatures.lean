import Formulary.Proofs.Resolution
import Formulary.Signature

namespace Formulary.Signature

/-- Steps of interpreting a call, when all variables of its types have a property. -/
def callWatch (F : Int → Prop) : Watch Progress Fault where
  supply := (·.supply)
  sound p := (∀ name b, p.bindings.get? name = some b → b.type.inScopeOf F p.supply.next) ∧
    ∀ k ∈ p.constraints, k.expected.inScopeOf F p.supply.next ∧ k.actual.inScopeOf F p.supply.next
  allowed := Fault.IsOrdinary

variable {P : Upward} {F : Int → Prop}

namespace Call

theorem bindTo_keeps (name : String) (b : ParamBinding) :
    Keeps (callWatch F) (b.type.inScopeOf F) (bindTo name b) fun _ => ⊤ := by
  refine Keeps.modify (fun s => le_rfl) fun s hs hb _ => ⟨fun other b' hb' => ?_, hs.2⟩
  rw [SortedMap.get?_insert] at hb'
  split at hb'
  · cases hb'
    exact hb
  · exact hs.1 other b' hb'

theorem freshVar_keeps (hF : ∀ n, P n → F n) :
    Keeps (callWatch F) P freshVar (Ty.inScopeOf F) where
  grows s := s.supply.le_advance
  keeps s hs hsound hpre := by
    have hnext : s.supply.advance.next = s.supply.next + 1 := hs.next_advance
    have hle : s.supply.next ≤ s.supply.advance.next := by omega
    refine ⟨⟨fun name b hb => ?_, fun k hk => ?_⟩, ?_⟩
    · exact (Ty.inScopeOf F _).mono hle (hsound.1 name b hb)
    · exact ⟨(Ty.inScopeOf F _).mono hle (hsound.2 k hk).1,
        (Ty.inScopeOf F _).mono hle (hsound.2 k hk).2⟩
    · refine Ty.within_var ⟨?_, hF _ hpre⟩
      show s.supply.next < s.supply.advance.next
      omega

theorem constrain_keeps (expected actual : Ty) (arg : Nat) :
    Keeps (callWatch F) (expected.inScopeOf F ⊓ actual.inScopeOf F) (constrain expected actual arg)
      fun _ => ⊤ := by
  refine Keeps.modify (fun s => le_rfl) fun s hs h _ => ⟨hs.1, fun k hk => ?_⟩
  rcases List.mem_append.1 hk with hk | hk
  · exact hs.2 k hk
  · obtain rfl := List.mem_singleton.1 hk
    exact h

theorem ordinary_resolveClosed {r : DataTypes} {name : String} {n : Int} :
    Ends (fun t => t.inScopeOf F n) Fault.IsOrdinary (r.resolveClosed [] (.named name)) :=
  r.resolveClosed_ends rfl fun _ hb => absurd hb List.not_mem_nil

theorem unboundParam_keeps (hF : ∀ n, P n → F n) (c : Call) (mode : Unbound) (name : String)
    (kind : ParamKind) (arg : Nat) :
    Keeps (callWatch F) P (c.unboundParam mode name kind arg) (Ty.inScopeOf F) := by
  cases mode with
  | fresh =>
      refine (freshVar_keeps hF).bind fun t => ?_
      refine (bindTo_keeps name ⟨kind, t, arg⟩).followedBy (fun n h => h.2) fun _ => ?_
      exact Keeps.pure fun n h => h.1.2
  | refuse =>
      rw [unboundParam]
      refine Keeps.ite ?_ (Keeps.throw fun _ _ => ?_)
      · refine (bindTo_keeps name ⟨kind, .scalar, arg⟩).followedBy
          (fun n _ => Ty.within_scalar) fun _ => ?_
        exact Keeps.pure fun n h => Ty.within_scalar
      · simp [callWatch, Fault.IsOrdinary, Fault.kind]

theorem get_keeps : Keeps (callWatch F) P (get : Interpret Progress)
    fun p => Every (fun e : String × ParamBinding => e.2.type.inScopeOf F) p.bindings.entries := by
  refine Keeps.get fun s hs _ e he => ?_
  exact hs.1 e.1 e.2 ((SortedMap.get?_eq_some_iff _ _ _).2 he)

theorem inScope_of_get? {p : Progress} {name : String} {b : ParamBinding} {n : Int}
    (h : Every (fun e : String × ParamBinding => e.2.type.inScopeOf F) p.bindings.entries n)
    (hb : p.bindings.get? name = some b) : b.type.inScopeOf F n :=
  h (name, b) ((SortedMap.get?_eq_some_iff _ _ _).1 hb)

mutual

theorem build_keeps (hF : ∀ n, P n → F n) (c : Call) (mode : Unbound) (arg : Nat)
    (hint : ParamKind) (e : TypeExpr) :
    Keeps (callWatch F) (Known (e.isWhole = true) ⊓ P) (c.build mode arg hint e)
      (Ty.inScopeOf F) := by
  cases e with
  | blank => exact Keeps.throw fun _ h => absurd h.1 (by simp [Known, TypeExpr.isWhole])
  | named name =>
      rw [build]
      refine Keeps.ite ?_ ?_
      · refine get_keeps.bind fun p => ?_
        dsimp only
        split
        · rename_i b hb
          exact Keeps.pure fun n h => inScope_of_get? h.2 hb
        · exact (unboundParam_keeps hF c _ _ _ _).of_pre fun n h => h.1.2
      · exact Keeps.ofExcept fun n _ => ordinary_resolveClosed
  | app name args =>
      rw [build]
      refine (buildList_keeps hF c mode arg name 0 args).bind fun ts => ?_
      exact Keeps.ofExcept fun n h => DataTypes.applyName_ends h.2
  | arrow domain codomain =>
      rw [build]
      have hwhole : ∀ n, Known ((domain.arrow codomain).isWhole = true) n →
          domain.isWhole = true ∧ codomain.isWhole = true := fun n h =>
        Bool.and_eq_true_iff.1 h
      refine (build_keeps hF c mode arg .type domain).followedBy
        (fun n h => ⟨(hwhole n h.1).1, h.2⟩) fun a => ?_
      refine (build_keeps hF c mode arg .type codomain).followedBy
        (fun n h => ⟨(hwhole n h.1.1).2, h.1.2⟩) fun b => ?_
      exact Keeps.pure fun n h => Ty.within_fn.2 ⟨h.1.2, h.2⟩
  | nat value => exact Keeps.pure fun n _ => Ty.within_nat _
  | tag value => exact Keeps.pure fun n _ => Ty.within_tag _

theorem buildList_keeps (hF : ∀ n, P n → F n) (c : Call) (mode : Unbound) (arg : Nat)
    (name : String) (i : Nat) (es : List TypeExpr) :
    Keeps (callWatch F) (Known (TypeExpr.isWholeList es = true) ⊓ P)
      (c.buildList mode arg name i es) (Every (Ty.inScopeOf F)) := by
  cases es with
  | nil => exact Keeps.pure fun n _ => every_nil _ n
  | cons e es =>
      rw [buildList]
      have hwhole : ∀ n, Known (TypeExpr.isWholeList (e :: es) = true) n →
          e.isWhole = true ∧ TypeExpr.isWholeList es = true := fun n h =>
        Bool.and_eq_true_iff.1 h
      refine (build_keeps hF c mode arg _ e).followedBy (fun n h => ⟨(hwhole n h.1).1, h.2⟩)
        fun t => ?_
      refine (buildList_keeps hF c mode arg name (i + 1) es).followedBy
        (fun n h => ⟨(hwhole n h.1.1).2, h.1.2⟩) fun ts => ?_
      exact Keeps.pure fun n h => every_cons.2 ⟨h.1.2, h.2⟩

end

theorem bindParam_keeps (c : Call) (name : String) (hint : ParamKind) (actual : Ty) (arg : Nat) :
    Keeps (callWatch F) (actual.inScopeOf F) (c.bindParam name hint actual arg) fun _ => ⊤ := by
  unfold bindParam
  refine get_keeps.bind fun p => ?_
  dsimp only
  split
  · refine Keeps.ite ((bindTo_keeps _ _).of_pre fun n h => h.1) (Keeps.throw fun _ _ => ?_)
    simp [callWatch, Fault.IsOrdinary, Fault.kind]
  · rename_i earlier hearlier
    refine Keeps.ite (Keeps.pure fun _ _ => trivial) (Keeps.ite ?_ (Keeps.ite ?_ ?_))
    · exact (constrain_keeps earlier.type actual arg).of_pre fun n h =>
        ⟨inScope_of_get? h.2 hearlier, h.1⟩
    · exact Keeps.throw fun _ _ => by simp [callWatch, Fault.IsOrdinary, Fault.kind]
    · exact Keeps.throw fun _ _ => by simp [callWatch, Fault.IsOrdinary, Fault.kind]

theorem require_keeps (c : Call) (expected actual : Ty) (arg : Nat) :
    Keeps (callWatch F) (expected.inScopeOf F ⊓ actual.inScopeOf F) (c.require expected actual arg)
      fun _ => ⊤ := by
  unfold require
  refine Keeps.ite (Keeps.ite (Keeps.pure fun _ _ => trivial) (Keeps.throw fun _ _ => ?_)) ?_
  · simp [callWatch, Fault.IsOrdinary, Fault.kind]
  · exact constrain_keeps expected actual arg

theorem mismatch_keeps (hF : ∀ n, P n → F n) (c : Call) (pattern : TypeExpr) (hint : ParamKind)
    (actual : Ty) (arg : Nat) :
    Keeps (callWatch F) (Known (pattern.isWhole = true) ⊓ P ⊓ actual.inScopeOf F)
      (c.mismatch pattern hint actual arg) fun _ => ⊤ := by
  unfold mismatch
  refine (build_keeps hF c .fresh arg hint pattern).followedBy (fun n h => h.1) fun t => ?_
  exact Keeps.throw fun _ _ => by simp [callWatch, Fault.IsOrdinary, Fault.kind]

mutual

theorem matchType_keeps (hF : ∀ n, P n → F n) (c : Call) (arg : Nat) (hint : ParamKind)
    (pattern : TypeExpr) (actual : Ty) :
    Keeps (callWatch F) (Known (pattern.isWhole = true) ⊓ P ⊓ actual.inScopeOf F)
      (c.matchType arg hint pattern actual) fun _ => ⊤ := by
  have hvar : ∀ (pattern : TypeExpr) (actual : Ty),
      Keeps (callWatch F) (Known (pattern.isWhole = true) ⊓ P ⊓ actual.inScopeOf F)
        (do
          let expected ← c.build .fresh arg hint pattern
          constrain expected actual arg) fun _ => ⊤ := fun pattern actual => by
    refine (build_keeps hF c .fresh arg hint pattern).followedBy (fun n h => h.1) fun t => ?_
    exact (constrain_keeps t _ arg).of_pre fun n h => ⟨h.2, h.1.2⟩
  unfold matchType
  split
  · refine Keeps.ite ((c.bindParam_keeps _ _ _ _).of_pre fun n h => h.2) (hvar _ _)
  · exact hvar _ _
  · rename_i name _
    refine Keeps.ite ((c.bindParam_keeps _ _ _ _).of_pre fun n h => h.2) ?_
    refine Keeps.bind (A := Ty.inScopeOf F) (Keeps.ofExcept fun n _ => ordinary_resolveClosed)
      fun t => ?_
    exact (c.require_keeps t _ arg).of_pre fun n h => ⟨h.2, h.1.2⟩
  · rename_i name params dataName constructor args
    refine Keeps.ite ?_ (mismatch_keeps hF c _ _ _ _)
    exact (matchTypes_keeps hF c arg name 0 params args).of_pre fun n h =>
      ⟨h.1, Ty.within_data.1 h.2⟩
  · rename_i domain codomain a b
    have hwhole : ∀ n, Known ((domain.arrow codomain).isWhole = true) n →
        domain.isWhole = true ∧ codomain.isWhole = true := fun n h =>
      Bool.and_eq_true_iff.1 h
    refine (matchType_keeps hF c arg .type domain a).followedBy
      (fun n h => ⟨⟨(hwhole n h.1.1).1, h.1.2⟩, (Ty.within_fn.1 h.2).1⟩) fun _ => ?_
    exact (matchType_keeps hF c arg .type codomain b).of_pre fun n h =>
      ⟨⟨(hwhole n h.1.1.1).2, h.1.1.2⟩, (Ty.within_fn.1 h.1.2).2⟩
  · exact (c.require_keeps _ _ arg).of_pre fun n h => ⟨Ty.within_nat _, h.2⟩
  · exact (c.require_keeps _ _ arg).of_pre fun n h => ⟨Ty.within_tag _, h.2⟩
  · exact Keeps.throw fun _ h => absurd h.1.1 (by simp [Known, TypeExpr.isWhole])
  · exact mismatch_keeps hF c _ _ _ _
termination_by sizeOf pattern

theorem matchTypes_keeps (hF : ∀ n, P n → F n) (c : Call) (arg : Nat) (name : String) (i : Nat)
    (patterns : List TypeExpr) (actuals : List Ty) :
    Keeps (callWatch F)
      (Known (TypeExpr.isWholeList patterns = true) ⊓ P ⊓ Every (Ty.inScopeOf F) actuals)
      (c.matchTypes arg name i patterns actuals) fun _ => ⊤ := by
  match patterns, actuals with
  | [], _ =>
      rw [matchTypes]
      · exact Keeps.pure fun _ _ => trivial
      · simp
  | pattern :: patterns, [] =>
      rw [matchTypes]
      · exact Keeps.pure fun _ _ => trivial
      · simp
  | pattern :: patterns, actual :: actuals =>
      rw [matchTypes]
      have hwhole : ∀ n, Known (TypeExpr.isWholeList (pattern :: patterns) = true) n →
          pattern.isWhole = true ∧ TypeExpr.isWholeList patterns = true := fun n h =>
        Bool.and_eq_true_iff.1 h
      refine (matchType_keeps hF c arg _ pattern actual).followedBy
        (fun n h => ⟨⟨(hwhole n h.1.1).1, h.1.2⟩, (every_cons.1 h.2).1⟩) fun _ => ?_
      exact (matchTypes_keeps hF c arg name (i + 1) patterns actuals).of_pre fun n h =>
        ⟨⟨(hwhole n h.1.1.1).2, h.1.1.2⟩, (every_cons.1 h.1.2).2⟩
termination_by sizeOf patterns

end

theorem matchArgs_keeps (hF : ∀ n, P n → F n) (c : Call) (i : Nat) (patterns : List TypeExpr)
    (actuals : List Ty) :
    Keeps (callWatch F)
      (Known (TypeExpr.isWholeList patterns = true) ⊓ P ⊓ Every (Ty.inScopeOf F) actuals)
      (c.matchArgs i patterns actuals) fun _ => ⊤ := by
  induction patterns generalizing i actuals with
  | nil =>
      rw [matchArgs]
      · exact Keeps.pure fun _ _ => trivial
      · simp
  | cons pattern patterns ih =>
      cases actuals with
      | nil =>
          rw [matchArgs]
          · exact Keeps.pure fun _ _ => trivial
          · simp
      | cons actual actuals =>
          rw [matchArgs]
          have hwhole : ∀ n, Known (TypeExpr.isWholeList (pattern :: patterns) = true) n →
              pattern.isWhole = true ∧ TypeExpr.isWholeList patterns = true := fun n h =>
            Bool.and_eq_true_iff.1 h
          refine (matchType_keeps hF c i .type pattern actual).followedBy
            (fun n h => ⟨⟨(hwhole n h.1.1).1, h.1.2⟩, (every_cons.1 h.2).1⟩) fun _ => ?_
          exact (ih (i + 1) actuals).of_pre fun n h =>
            ⟨⟨(hwhole n h.1.1.1).2, h.1.1.2⟩, (every_cons.1 h.1.2).2⟩

end Call

/-- What a call comes to is in scope. -/
def Outcome.inScope (o : Outcome) : Upward :=
  o.type.inScope ⊓ Every (fun k => k.expected.inScope ⊓ k.actual.inScope) o.constraints

/-- What a call comes to is in scope, and all its variables have a property. -/
def Outcome.inScopeOf (F : Int → Prop) (o : Outcome) : Upward :=
  o.type.inScopeOf F ⊓
    Every (fun k => k.expected.inScopeOf F ⊓ k.actual.inScopeOf F) o.constraints

namespace Call

/-- The steps of interpreting a call that has as many arguments as its signature has parameters. -/
def walk (c : Call) : Interpret Outcome := do
  c.matchArgs 0 c.operation.signature.splitArrow.1 c.args
  let t ← c.build .refuse c.args.length .type c.operation.signature.splitArrow.2
  let p ← get
  return ⟨t, p.bindings, p.constraints⟩

theorem outcome_settle (r : Except Fault Outcome × Progress) (s : Supply) :
    Attempt.outcome (match r with
      | (outcome, progress) => do
        set progress.supply
        match outcome with
        | .ok o => (pure o : Fresh Outcome)
        | .error f => throw f) s = (r.1, r.2.supply) := by
  cases r with
  | mk outcome progress =>
      cases outcome with
      | ok o => rfl
      | error f => rfl

theorem outcome_interpret (c : Call) (s : Supply) :
    Attempt.outcome c.interpret s =
      if c.operation.signature.splitArrow.1.length ≠ c.args.length then
        (.error (.arity c.operation.name c.operation.signature.splitArrow.1.length c.args.length), s)
      else ((Attempt.outcome c.walk ⟨s, ∅, []⟩).1,
        (Attempt.outcome c.walk ⟨s, ∅, []⟩).2.supply) := by
  unfold interpret
  dsimp only
  split
  · rfl
  · show Attempt.outcome (get >>= fun supply => _) s = _
    rw [Attempt.outcome_bind, Attempt.outcome_get]
    exact outcome_settle (Attempt.outcome c.walk ⟨s, ∅, []⟩) s

theorem walk_keeps (hF : ∀ n, P n → F n) (c : Call) :
    Keeps (callWatch F)
      (Known (c.operation.signature.isWhole = true) ⊓ P ⊓ Every (Ty.inScopeOf F) c.args)
      c.walk (Outcome.inScopeOf F) := by
  refine (matchArgs_keeps hF c 0 _ c.args).followedBy
    (fun n h => ⟨⟨(TypeExpr.isWhole_splitArrow h.1.1).1, h.1.2⟩, h.2⟩) fun _ => ?_
  refine (build_keeps hF c .refuse _ .type _).followedBy
    (fun n h => ⟨(TypeExpr.isWhole_splitArrow h.1.1.1).2, h.1.1.2⟩) fun t => ?_
  refine Keeps.bind (A := fun p : Progress =>
    Every (fun k : Constraint => k.expected.inScopeOf F ⊓ k.actual.inScopeOf F) p.constraints)
    (Keeps.get fun s hs _ => hs.2) fun p => ?_
  exact Keeps.pure fun n h => ⟨h.1.2, h.2⟩

theorem interpret_keepsOf (hF : ∀ n, P n → F n) (c : Call) :
    Keeps freshWatch
      (Known (c.operation.signature.isWhole = true) ⊓ P ⊓ Every (Ty.inScopeOf F) c.args)
      c.interpret (Outcome.inScopeOf F) where
  grows s := by
    rw [outcome_interpret]
    split
    · exact le_rfl
    · exact (walk_keeps hF c).grows ⟨s, ∅, []⟩
  keeps s hs _ hpre := by
    rw [outcome_interpret] at hs ⊢
    split
    · exact ⟨trivial, by simp [Ends, freshWatch, Fault.IsOrdinary, Fault.kind]⟩
    · rename_i harity
      rw [if_neg harity] at hs
      have hstart : (callWatch F).sound ⟨s, ∅, []⟩ :=
        ⟨fun name b hb => by simp at hb, fun k hk => absurd hk List.not_mem_nil⟩
      exact ⟨trivial, ((walk_keeps hF c).keeps ⟨s, ∅, []⟩ hs hstart hpre).2⟩

theorem interpret_keeps (c : Call) :
    Keeps freshWatch (Known (c.operation.signature.isWhole = true) ⊓ Every Ty.inScope c.args)
      c.interpret Outcome.inScope := by
  have hkeeps := interpret_keepsOf (P := ⊤) (F := fun _ => True) (fun _ _ => trivial) c
  have houtcome : Outcome.inScopeOf (fun _ => True) = Outcome.inScope := by
    funext o
    simp only [Outcome.inScopeOf, Outcome.inScope, Ty.inScopeOf_true]
  rw [houtcome, Ty.inScopeOf_true] at hkeeps
  exact Keeps.of_pre hkeeps fun n h => ⟨⟨h.1, trivial⟩, h.2⟩

end Call

end Formulary.Signature
