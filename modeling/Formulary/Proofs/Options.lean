import Formulary.Proofs.History

namespace Formulary

namespace Attempt

variable {σ τ ε ρ α β : Type} {part : σ → ρ}

/-- What steps return, from a state and into a state, other steps return too; and a part of the state
stays as it is. -/
def Echoes (part : σ → ρ) (m m' : Attempt σ ε α) : Prop :=
  ∀ s a s', m.Returns s a s' → m'.Returns s a s' ∧ part s' = part s

namespace Echoes

theorem pure (a : α) : Echoes part (pure a : Attempt σ ε α) (pure a) := by
  intro s b s' h
  cases h
  exact ⟨rfl, rfl⟩

theorem throw (e e' : ε) : Echoes part (throw e : Attempt σ ε α) (throw e') := by
  intro s b s' h
  cases h

theorem get : Echoes part (get : Attempt σ ε σ) get := by
  intro s b s' h
  cases h
  exact ⟨rfl, rfl⟩

theorem modify {f : σ → σ} (h : ∀ s, part (f s) = part s) :
    Echoes part (modify f : Attempt σ ε PUnit) (modify f) := by
  intro s b s' hrun
  cases hrun
  exact ⟨rfl, h s⟩

theorem bind {m m' : Attempt σ ε α} {f f' : α → Attempt σ ε β} (hm : Echoes part m m')
    (hf : ∀ a, Echoes part (f a) (f' a)) : Echoes part (m >>= f) (m' >>= f') := by
  intro s b s' h
  obtain ⟨a, s₁, hfirst, hrest⟩ := returns_bind_iff.1 h
  obtain ⟨hfirst', hpart₁⟩ := hm s a s₁ hfirst
  obtain ⟨hrest', hpart⟩ := hf a s₁ b s' hrest
  exact ⟨returns_bind_iff.2 ⟨a, s₁, hfirst', hrest'⟩, hpart.trans hpart₁⟩

theorem ite {c : Prop} [Decidable c] {m₁ m₂ m₁' m₂' : Attempt σ ε α} (hthen : Echoes part m₁ m₁')
    (helse : Echoes part m₂ m₂') :
    Echoes part (if c then m₁ else m₂) (if c then m₁' else m₂') := by
  split
  · exact hthen
  · exact helse

theorem mapM {f f' : α → Attempt σ ε β} (h : ∀ a, Echoes part (f a) (f' a)) (l : List α) :
    Echoes part (l.mapM f) (l.mapM f') := by
  induction l with
  | nil => exact .pure []
  | cons a l ih =>
      rw [List.mapM_cons, List.mapM_cons]
      exact (h a).bind fun b => ih.bind fun bs => .pure (b :: bs)

/-- Where all of the state may change, steps echo themselves. -/
theorem itself (m : Attempt σ ε α) : Echoes (fun _ => ()) m m := fun _ _ _ h => ⟨h, rfl⟩

/-- Failures do not matter, so it does not matter either how they are told. -/
theorem tryCatch {m m' : Attempt σ ε α} {f f' : ε → Attempt σ ε α} (hm : Echoes part m m')
    (hf : ∀ e s a s', ¬(f e).Returns s a s') : Echoes part (tryCatch m f) (tryCatch m' f') := by
  intro s a s' h
  rw [Returns, outcome_tryCatch] at h
  cases hm₁ : m.outcome s with
  | mk r s₁ =>
      rw [hm₁] at h
      cases r with
      | ok b =>
          cases h
          obtain ⟨hm', hpart⟩ := hm s a s' hm₁
          rw [Returns] at hm' ⊢
          rw [outcome_tryCatch, hm']
          exact ⟨rfl, hpart⟩
      | error e => exact absurd h (hf e s₁ a s')

theorem zoom {m m' : Attempt τ ε α} {get : σ → τ} {set : σ → τ → σ}
    (hm : Echoes (fun _ => ()) m m') (hset : ∀ s t, part (set s t) = part s) :
    Echoes part (zoom get set m) (zoom get set m') := by
  intro s a s' h
  rw [Returns, outcome_zoom, Prod.mk.injEq] at h
  have hm' : m'.outcome (get s) = (.ok a, (m.outcome (get s)).2) :=
    (hm (get s) a _ (Prod.ext h.1 rfl)).1
  rw [Returns, outcome_zoom, hm', ← h.2]
  exact ⟨rfl, hset _ _⟩

end Echoes

end Attempt

open Attempt (Echoes)

namespace Signature.Call

/-- The same call, where the result may be let be. -/
structure Eases (c c' : Call) : Prop where
  registry : c'.registry = c.registry
  interface : c'.interface = c.interface
  operation : c'.operation = c.operation
  args : c'.args = c.args
  lenient : c.lenient = true → c'.lenient = true

variable {c c' : Call}

/-- Steps of interpreting a call that return the same. -/
abbrev Agrees {α : Type} (m m' : Interpret α) : Prop := Echoes (fun _ => ()) m m'

theorem Eases.data (h : c.Eases c') : c'.data = c.data := congrArg Registry.data h.registry

theorem Eases.isParam (h : c.Eases c') : c'.isParam = c.isParam := by
  funext name
  rw [Call.isParam, Call.isParam, h.interface, h.data]

theorem Eases.kindOf (h : c.Eases c') : c'.kindOf = c.kindOf := by
  funext bindings name hint
  rw [Call.kindOf, Call.kindOf, h.registry, h.interface]

theorem unboundParam_agrees (h : c.Eases c') (mode : Unbound) (name : String) (kind : ParamKind)
    (arg : Nat) : Agrees (c.unboundParam mode name kind arg) (c'.unboundParam mode name kind arg) := by
  cases mode with
  | fresh => exact .itself _
  | refuse =>
      rw [unboundParam, unboundParam]
      cases hlenient : c.lenient with
      | true =>
          rw [h.lenient hlenient, h.interface, h.operation]
          exact .itself _
      | false =>
          intro p t p' hrun
          cases hrun

mutual

theorem build_agrees (h : c.Eases c') (mode : Unbound) (arg : Nat) (hint : ParamKind)
    (e : TypeExpr) : Agrees (c.build mode arg hint e) (c'.build mode arg hint e) := by
  cases e with
  | blank => exact .throw _ _
  | named name =>
      rw [build, build, h.isParam, h.kindOf, h.data]
      refine .ite (Echoes.get.bind fun p => ?_) (.itself _)
      dsimp only
      split
      · exact .pure _
      · exact unboundParam_agrees h mode name _ arg
  | app name args =>
      rw [build, build, h.data]
      exact (buildList_agrees h mode arg name 0 args).bind fun _ => .itself _
  | arrow domain codomain =>
      rw [build, build]
      exact (build_agrees h mode arg .type domain).bind fun _ =>
        (build_agrees h mode arg .type codomain).bind fun _ => .pure _
  | nat value => exact .pure _
  | tag value => exact .pure _

theorem buildList_agrees (h : c.Eases c') (mode : Unbound) (arg : Nat) (name : String) (i : Nat)
    (es : List TypeExpr) :
    Agrees (c.buildList mode arg name i es) (c'.buildList mode arg name i es) := by
  cases es with
  | nil => exact .pure []
  | cons e es =>
      rw [buildList, buildList, h.data]
      exact (build_agrees h mode arg _ e).bind fun t =>
        (buildList_agrees h mode arg name (i + 1) es).bind fun ts => .pure (t :: ts)

end

theorem bindParam_agrees (h : c.Eases c') (name : String) (hint : ParamKind) (actual : Ty)
    (arg : Nat) : Agrees (c.bindParam name hint actual arg) (c'.bindParam name hint actual arg) := by
  unfold bindParam
  rw [h.kindOf]
  refine Echoes.get.bind fun p => ?_
  dsimp only
  split
  · exact .ite (.itself _) (.throw _ _)
  · exact .ite (.pure ()) (.ite (.itself _) (.ite (.throw _ _) (.throw _ _)))

theorem require_agrees (expected actual : Ty) (arg : Nat) :
    Agrees (c.require expected actual arg) (c'.require expected actual arg) :=
  .ite (.ite (.pure ()) (.throw _ _)) (.itself _)

theorem mismatch_agrees (h : c.Eases c') (pattern : TypeExpr) (hint : ParamKind) (actual : Ty)
    (arg : Nat) : Agrees (c.mismatch pattern hint actual arg) (c'.mismatch pattern hint actual arg) :=
  (build_agrees h .fresh arg hint pattern).bind fun _ => .throw _ _

mutual

theorem matchType_agrees (h : c.Eases c') (arg : Nat) (hint : ParamKind) (pattern : TypeExpr)
    (actual : Ty) : Agrees (c.matchType arg hint pattern actual) (c'.matchType arg hint pattern actual) := by
  unfold matchType
  rw [h.isParam, h.data]
  split
  · exact .ite (bindParam_agrees h _ _ _ _)
      ((build_agrees h .fresh arg hint _).bind fun _ => .itself _)
  · exact (build_agrees h .fresh arg hint _).bind fun _ => .itself _
  · refine .ite (bindParam_agrees h _ _ _ _) ?_
    exact (Echoes.itself _).bind fun _ => require_agrees _ _ _
  · refine .ite ?_ (mismatch_agrees h _ _ _ _)
    exact matchTypes_agrees h arg _ 0 _ _
  · exact (matchType_agrees h arg .type _ _).bind fun _ => matchType_agrees h arg .type _ _
  · exact require_agrees _ _ _
  · exact require_agrees _ _ _
  · exact .throw _ _
  · exact mismatch_agrees h _ _ _ _
termination_by sizeOf pattern

theorem matchTypes_agrees (h : c.Eases c') (arg : Nat) (name : String) (i : Nat)
    (patterns : List TypeExpr) (actuals : List Ty) :
    Agrees (c.matchTypes arg name i patterns actuals) (c'.matchTypes arg name i patterns actuals) := by
  unfold matchTypes
  rw [h.data]
  split
  · exact (matchType_agrees h arg _ _ _).bind fun _ => matchTypes_agrees h arg name (i + 1) _ _
  · exact .pure ()
termination_by sizeOf patterns

end

theorem matchArgs_agrees (h : c.Eases c') (i : Nat) (patterns : List TypeExpr) (actuals : List Ty) :
    Agrees (c.matchArgs i patterns actuals) (c'.matchArgs i patterns actuals) := by
  induction patterns generalizing i actuals with
  | nil => exact .pure ()
  | cons pattern patterns ih =>
      cases actuals with
      | nil => exact .pure ()
      | cons actual actuals =>
          rw [matchArgs, matchArgs]
          exact (matchType_agrees h i .type pattern actual).bind fun _ => ih (i + 1) actuals

theorem walk_agrees (h : c.Eases c') : Agrees c.walk c'.walk := by
  unfold walk
  rw [h.operation, h.args]
  exact (matchArgs_agrees h 0 _ _).bind fun _ => (build_agrees h .refuse _ .type _).bind fun _ =>
    .itself _

theorem interpret_agrees (h : c.Eases c') : Echoes (fun _ => ()) c.interpret c'.interpret := by
  intro s o s' hrun
  rw [Attempt.Returns, outcome_interpret] at hrun ⊢
  rw [h.operation, h.args]
  split at hrun
  · cases hrun
  · rename_i harity
    rw [if_neg harity]
    rw [Prod.mk.injEq] at hrun
    have hwalk : Attempt.outcome c'.walk ⟨s, ∅, []⟩ = (.ok o, (Attempt.outcome c.walk ⟨s, ∅, []⟩).2) :=
      (walk_agrees h ⟨s, ∅, []⟩ o _ (Prod.ext hrun.1 rfl)).1
    rw [hwalk]
    exact ⟨Prod.ext rfl hrun.2, rfl⟩

end Signature.Call

namespace Inference

variable {α β : Type} {c c' : Context}

/-- The same context, where the results of calls may be let be. Whether matches have to be
exhaustive is another matter. -/
structure Context.Eases (c c' : Context) : Prop where
  registry : c'.registry = c.registry
  trace : c'.trace = c.trace
  implemented : c'.implemented = c.implemented
  lenient : c.lenient = true → c'.lenient = true

theorem Context.Eases.data (h : c.Eases c') : c'.data = c.data := congrArg Registry.data h.registry

theorem Context.Eases.refl (c : Context) : c.Eases c := ⟨rfl, rfl, rfl, id⟩

/-- Strictness makes no difference to the steps of inference but one. -/
theorem Context.Eases.strict (c : Context) (b b' : Bool) :
    Context.Eases { c with strict := b } { c with strict := b' } :=
  ⟨rfl, rfl, rfl, id⟩

theorem Context.Eases.unify_eq (h : c.Eases c') (a b : Ty) : unify c' a b = unify c a b := by
  unfold unify
  rw [h.trace]

theorem Context.Eases.bindPattern_eq (h : c.Eases c') (e : Expr) (p : Pattern) (scrutinee : Ty) :
    bindPattern c' e p scrutinee = bindPattern c e p scrutinee := by
  unfold bindPattern
  rw [h.data]

/-- Steps of inference that return the same and warn of nothing. -/
abbrev Agrees (m m' : Infer α) : Prop := Echoes State.warnings m m'

theorem failAt_agrees (e e' : Expr) (f f' : Fault) :
    Agrees (failAt e f : Infer α) (failAt e' f') := by
  intro s a s' h
  cases h

theorem blaming_agrees {e : Expr} {m m' : Infer α} (h : Agrees m m') :
    Agrees (blaming e m) (blaming e m') :=
  h.tryCatch fun f s a s' hrun => by cases hrun

theorem fresh_agrees {m m' : Fresh α} (h : Echoes (fun _ => ()) m m') :
    Agrees (fresh m) (fresh m') :=
  h.zoom fun _ _ => rfl

theorem freshVar_agrees : Agrees freshVar freshVar :=
  (fresh_agrees (.itself _)).bind fun _ => .pure _

theorem known_agrees (t : Ty) : Agrees (known t) (known t) := Echoes.get.bind fun _ => .pure _

theorem log_agrees (line : String) : Agrees (log line) (log line) := .modify fun _ => rfl

theorem freeName_agrees (name : String) : Agrees (freeName name) (freeName name) := by
  refine Echoes.get.bind fun s => ?_
  split
  · exact .pure _
  · exact (fresh_agrees (.itself _)).bind fun id => .bind (.modify fun _ => rfl) fun _ => .pure _

theorem State.logged_warnings (s : State) (c : Context) (line : String) :
    (s.logged c line).warnings = s.warnings := by
  unfold logged
  split <;> rfl

theorem unify_agrees (h : c.Eases c') (a b : Ty) : Agrees (unify c a b) (unify c' a b) := by
  intro s u s' hrun
  refine ⟨h.unify_eq a b ▸ hrun, ?_⟩
  obtain ⟨line, houtcome⟩ := outcome_unify c a b s
  rw [Attempt.Returns, houtcome] at hrun
  cases hunify : Ty.unify (s.subst.apply a) (s.subst.apply b) with
  | ok found =>
      rw [hunify] at hrun
      cases hrun
      exact s.logged_warnings c line
  | error e =>
      rw [hunify] at hrun
      cases hrun

theorem bindPattern_agrees (h : c.Eases c') (e : Expr) (p : Pattern) (scrutinee : Ty) :
    Agrees (bindPattern c e p scrutinee) (bindPattern c' e p scrutinee) := by
  unfold bindPattern
  rw [h.data]
  exact (known_agrees scrutinee).bind fun t => (blaming_agrees (fresh_agrees (.itself _))).bind
    fun typing => .bind (.modify fun _ => rfl) fun _ => .pure _

theorem bindValue_agrees (h : c.Eases c') (kind : ParamKind) (field : Ty) (refusal : Fault)
    (actual : Ty) : Agrees (bindValue c kind field refusal actual)
      (bindValue c' kind field refusal actual) := by
  cases actual with
  | var => exact .pure ()
  | prim => exact .ite (.pure ()) (.throw _ _)
  | nat | tag =>
      refine .ite ?_ (.throw _ _)
      split
      · exact unify_agrees h _ _
      · exact .pure ()
  | blank | data | fn | poly => exact .throw _ _

theorem bindField_agrees (h : c.Eases c') (v : VariantInstance) (index : Nat)
    (field : FieldInstance) (arg : Expr) (argType : Ty) :
    Agrees (bindField c v index field arg argType) (bindField c' v index field arg argType) := by
  unfold bindField
  refine .ite (unify_agrees h _ _) ?_
  split
  · split
    · exact unify_agrees h _ _
    · exact .pure ()
  · exact .throw _ _
  · exact (known_agrees argType).bind fun actual => bindValue_agrees h _ _ _ actual

theorem bindFields_agrees (h : c.Eases c') (v : VariantInstance) (index : Nat)
    (fields : List FieldInstance) (args : List (Expr × Ty)) :
    Agrees (bindFields c v index fields args) (bindFields c' v index fields args) := by
  induction fields generalizing index args with
  | nil => exact .pure ()
  | cons field fields ih =>
      cases args with
      | nil => exact .pure ()
      | cons arg args =>
          rw [bindFields, bindFields]
          exact (bindField_agrees h v index field arg.1 arg.2).bind fun _ => ih (index + 1) args

theorem bindElements_agrees (h : c.Eases c') (element : Ty) (args : List (Expr × Ty)) :
    Agrees (bindElements c element args) (bindElements c' element args) := by
  induction args with
  | nil => exact .pure ()
  | cons arg args ih => exact (blaming_agrees (unify_agrees h element arg.2)).bind fun _ => ih

theorem inferConstruction_agrees (h : c.Eases c') (e : Expr) (name : String)
    (args : List (Expr × Ty)) :
    Agrees (inferConstruction c e name args) (inferConstruction c' e name args) := by
  unfold inferConstruction
  rw [h.data]
  refine (blaming_agrees (fresh_agrees (.itself _))).bind fun v => .ite ?_ (.ite ?_ ?_)
  · exact (blaming_agrees (bindFields_agrees h v 0 _ _)).bind fun _ => known_agrees _
  · exact (blaming_agrees (bindFields_agrees h v 0 _ _)).bind fun _ =>
      (bindElements_agrees h _ _).bind fun _ => known_agrees _
  · exact failAt_agrees e e _ _

theorem unifyFor_agrees (h : c.Eases c') (requirer : Requirer) (e : Expr) (a b : Ty) :
    Agrees (unifyFor c requirer e a b) (unifyFor c' requirer e a b) :=
  (unify_agrees h a b).tryCatch fun f s a s' hrun => by cases hrun

theorem inferApplication_agrees (h : c.Eases c') (e : Expr) (name : String) (t : Ty)
    (args : List Ty) :
    Agrees (inferApplication c e name t args) (inferApplication c' e name t args) := by
  have hrest : ∀ fn, Agrees (do
      let result ← freshVar
      unifyFor c (.function name) e fn (Ty.curry args result)
      known result) (do
      let result ← freshVar
      unifyFor c' (.function name) e fn (Ty.curry args result)
      known result) := fun fn =>
    freshVar_agrees.bind fun result =>
      (unifyFor_agrees h _ e fn _).bind fun _ => known_agrees result
  refine (fresh_agrees (.itself _)).bind fun fn => (known_agrees fn).bind fun fn' => ?_
  split
  · exact .ite (failAt_agrees e e _ _) (hrest fn)
  · exact hrest fn

theorem meetConstraints_agrees (h : c.Eases c') (requirer : Requirer) (e : Expr)
    (constraints : List Signature.Constraint) :
    Agrees (meetConstraints c requirer e constraints) (meetConstraints c' requirer e constraints) := by
  induction constraints with
  | nil => exact .pure ()
  | cons k rest ih => exact (unifyFor_agrees h requirer e _ _).bind fun _ => ih

theorem inferOperation_agrees (h : c.Eases c') (e : Expr) (s : Structure) (op : Operation)
    (args : List Ty) : Agrees (inferOperation c e s op args) (inferOperation c' e s op args) := by
  have hargs : Agrees (args.mapM known) (args.mapM known) := .mapM known_agrees args
  have hcall : ∀ before, Signature.Call.Eases ⟨c.registry, s, op, before, c.lenient⟩
      ⟨c'.registry, s, op, before, c'.lenient⟩ := fun _ => ⟨h.registry, rfl, rfl, rfl, h.lenient⟩
  refine hargs.bind fun before => ?_
  refine (blaming_agrees (fresh_agrees (Signature.Call.interpret_agrees (hcall before)))).bind
    fun o => (meetConstraints_agrees h _ e _).bind fun _ => ?_
  rw [h.implemented, h.registry]
  refine .ite ?_ (known_agrees _)
  exact hargs.bind fun after => (blaming_agrees (fresh_agrees (.itself _))).bind fun _ =>
    known_agrees _

theorem inferName_agrees (h : c.Eases c') (env : TypeEnv) (name : String) :
    Agrees (inferName c env name) (inferName c' env name) := by
  unfold inferName
  rw [h.data, h.registry]
  split
  · exact fresh_agrees (.itself _)
  · split
    · exact inferConstruction_agrees h _ name []
    · exact .ite (inferOperation_agrees h _ _ _ []) (freeName_agrees name)
    · exact freeName_agrees name

theorem inferCall_agrees (h : c.Eases c') (env : TypeEnv) (name : String) (args : List Expr)
    (types : List Ty) :
    Agrees (inferCall c env name args types) (inferCall c' env name args types) := by
  unfold inferCall
  rw [h.data, h.registry]
  refine .ite (inferConstruction_agrees h _ name _) ?_
  split
  · exact inferApplication_agrees h _ name _ types
  · exact inferOperation_agrees h _ _ _ types
  · exact failAt_agrees _ _ _ _

/-- A way of comparing what is inferred in two contexts. It may tell a difference where matches are
reviewed and where calls are typed; the rest is the same for both. -/
structure Comparison (c c' : Context) where
  holds {α : Type} (m m' : Infer α) : Prop
  bind {α β : Type} {m m' : Infer α} {f f' : α → Infer β} (hm : holds m m')
    (hf : ∀ a, holds (f a) (f' a)) : holds (m >>= f) (m' >>= f')
  same {α : Type} {m : Infer α} (hm : Agrees m m) : holds m m
  name (env : TypeEnv) (name : String) : holds (inferName c env name) (inferName c' env name)
  call (env : TypeEnv) (name : String) (args : List Expr) (types : List Ty) :
    holds (inferCall c env name args types) (inferCall c' env name args types)
  review (e : Expr) (scrutinee : Ty) (ps : List Pattern) :
    holds (reviewCases c e scrutinee ps) (reviewCases c' e scrutinee ps)

namespace Comparison

mutual

theorem infer (K : Comparison c c') (h : c.Eases c') (env : TypeEnv) (e : Expr) :
    K.holds (infer c env e) (infer c' env e) := by
  cases e with
  | blank =>
      rw [Inference.infer, Inference.infer]
      exact K.same (.throw _ _)
  | const value =>
      rw [Inference.infer, Inference.infer]
      exact K.same (.pure _)
  | object name =>
      rw [Inference.infer, Inference.infer]
      exact K.name env name
  | operation name args =>
      rw [Inference.infer, Inference.infer]
      exact K.bind (K.inferList h env args) fun types => K.call env name args types
  | matching scrutinee cases =>
      rw [Inference.infer, Inference.infer]
      dsimp only
      split
      · rw [failAt_bind, failAt_bind]
        exact K.same (failAt_agrees _ _ _ _)
      · refine K.bind (K.infer h env scrutinee) fun t => ?_
        refine K.bind (K.inferCases h env _ t none cases) fun result => ?_
        exact K.bind (K.same (known_agrees t)) fun t => K.bind (K.review _ t _) fun _ =>
          K.same (known_agrees _)

theorem inferList (K : Comparison c c') (h : c.Eases c') (env : TypeEnv) (es : List Expr) :
    K.holds (inferList c env es) (inferList c' env es) := by
  cases es with
  | nil =>
      rw [Inference.inferList, Inference.inferList]
      exact K.same (.pure [])
  | cons e es =>
      rw [Inference.inferList, Inference.inferList]
      exact K.bind (K.infer h env e) fun t => K.bind (K.inferList h env es) fun ts =>
        K.same (.pure (t :: ts))

theorem inferCases (K : Comparison c c') (h : c.Eases c') (env : TypeEnv) (e : Expr)
    (scrutinee : Ty) (result : Option Ty) (cases : List (Pattern × Expr)) :
    K.holds (inferCases c env e scrutinee result cases)
      (inferCases c' env e scrutinee result cases) := by
  match cases with
  | [] =>
      rw [Inference.inferCases, Inference.inferCases]
      exact K.same (.pure result)
  | (p, body) :: rest =>
      rw [Inference.inferCases, Inference.inferCases, h.bindPattern_eq]
      refine K.bind (K.same (bindPattern_agrees (.refl c) e p scrutinee)) fun bindings => ?_
      refine K.bind (K.infer h _ body) fun t => ?_
      cases result with
      | none => exact K.inferCases h env e scrutinee (some t) rest
      | some result =>
          dsimp only
          rw [h.unify_eq]
          exact K.bind (K.same (blaming_agrees (unify_agrees (.refl c) result t))) fun _ =>
            K.inferCases h env e scrutinee (some result) rest

end

theorem settle (K : Comparison c c') (h : c.Eases c') (env : TypeEnv) (e : Expr) :
    K.holds (Inference.infer c env e >>= settleType c e)
      (Inference.infer c' env e >>= settleType c' e) := by
  have hsettle : settleType c' e = settleType c e := by
    unfold settleType
    rw [h.trace]
  rw [hsettle]
  refine K.bind (K.infer h env e) fun t => K.same ?_
  have hrequire : Agrees requireIdempotent requireIdempotent := by
    refine Echoes.get.bind fun s => ?_
    dsimp only
    split
    · exact .pure ()
    · exact .throw _ _
  have hreturn : ∀ t : Ty, Agrees (pure t : Infer Ty) (pure t) := fun t => .pure t
  refine (blaming_agrees hrequire).bind fun _ => (known_agrees t).bind fun t => .ite ?_ (hreturn t)
  exact Echoes.get.bind fun s => (log_agrees _).bind fun _ => hreturn t

end Comparison

theorem returns_inferExpr_iff {env : TypeEnv} {e : Expr} {s s' : State} {t : Ty} :
    (inferExpr c env e).Returns s t s' ↔
      (infer c env e >>= settleType c e).Returns s.reset t s' := by
  by_cases he : e = .blank
  · subst he
    constructor
    · intro h
      cases h
    · intro h
      obtain ⟨_, _, hrun, -⟩ := Attempt.returns_bind_iff.1 h
      cases hrun
  · rw [Attempt.Returns, outcome_inferExpr c env he]
    exact Iff.rfl

/-- Whatever is inferred is inferred as well where more is let be. -/
def easing (h : c.Eases c') (hstrict : c'.strict = c.strict) : Comparison c c' where
  holds m m' := Echoes (fun _ => ()) m m'
  bind := Echoes.bind
  same _ := .itself _
  name env name s t s' hrun := ⟨(inferName_agrees h env name s t s' hrun).1, rfl⟩
  call env name args types s t s' hrun := ⟨(inferCall_agrees h env name args types s t s' hrun).1, rfl⟩
  review e scrutinee ps := by
    unfold reviewCases
    rw [h.data, hstrict]
    exact .itself _

/-- No match has been found that leaves out a value. -/
def State.IsExhaustive (s : State) : Prop := ∀ f ∈ s.warnings, f.kind ≠ .nonExhaustiveMatch

/-- Strict steps return what other steps return without a warning of a match. -/
def Polices (m m' : Infer α) : Prop :=
  ∀ s a s', m.Returns s a s' ∧ s.IsExhaustive ↔ m'.Returns s a s' ∧ s'.IsExhaustive

namespace Polices

theorem bind {m m' : Infer α} {f f' : α → Infer β} (hm : Polices m m')
    (hf : ∀ a, Polices (f a) (f' a)) : Polices (m >>= f) (m' >>= f') := by
  intro s b s'
  rw [Attempt.returns_bind_iff, Attempt.returns_bind_iff]
  constructor
  · rintro ⟨⟨a, s₁, hfirst, hrest⟩, hs⟩
    obtain ⟨hfirst', hs₁⟩ := (hm s a s₁).1 ⟨hfirst, hs⟩
    obtain ⟨hrest', hs'⟩ := (hf a s₁ b s').1 ⟨hrest, hs₁⟩
    exact ⟨⟨a, s₁, hfirst', hrest'⟩, hs'⟩
  · rintro ⟨⟨a, s₁, hfirst', hrest'⟩, hs'⟩
    obtain ⟨hrest, hs₁⟩ := (hf a s₁ b s').2 ⟨hrest', hs'⟩
    obtain ⟨hfirst, hs⟩ := (hm s a s₁).2 ⟨hfirst', hs₁⟩
    exact ⟨⟨a, s₁, hfirst, hrest⟩, hs⟩

/-- Steps that agree both ways warn of nothing. -/
theorem of_agrees {m m' : Infer α} (h : Agrees m m') (h' : Agrees m' m) : Polices m m' := by
  intro s a s'
  constructor
  · rintro ⟨hrun, hs⟩
    obtain ⟨hrun', hwarnings⟩ := h s a s' hrun
    exact ⟨hrun', fun f hf => hs f (hwarnings ▸ hf)⟩
  · rintro ⟨hrun', hs'⟩
    obtain ⟨hrun, hwarnings⟩ := h' s a s' hrun'
    exact ⟨hrun, fun f hf => hs' f (hwarnings ▸ hf)⟩

/-- A warning of something else is the same for both. -/
theorem warn {f : Fault} (hf : f.kind ≠ .nonExhaustiveMatch) : Polices (warn f) (warn f) := by
  intro s a s'
  refine and_congr_right fun hrun => ?_
  cases hrun
  simp [State.IsExhaustive, or_imp, forall_and, hf]

theorem failAt_warn {f : Fault} (e : Expr) (hf : f.kind = .nonExhaustiveMatch) :
    Polices (failAt e f) (Inference.warn f) := by
  intro s a s'
  constructor
  · rintro ⟨hrun, -⟩
    cases hrun
  · rintro ⟨hrun, hs'⟩
    cases hrun
    exact absurd hf (hs' f (by simp))

theorem forM {γ : Type} {f : γ → Infer PUnit} (h : ∀ a, Polices (f a) (f a)) (l : List γ) :
    Polices (l.forM f) (l.forM f) := by
  induction l with
  | nil => exact of_agrees (.pure _) (.pure _)
  | cons a l ih => exact (h a).bind fun _ => ih

end Polices

theorem reviewCases_polices {registry : Registry} {lenient trace implemented : Bool} (e : Expr)
    (scrutinee : Ty) (ps : List Pattern) :
    Polices (reviewCases ⟨registry, true, lenient, trace, implemented⟩ e scrutinee ps)
      (reviewCases ⟨registry, false, lenient, trace, implemented⟩ e scrutinee ps) := by
  have hfresh : ∀ m : Fresh (List String), Agrees (fresh m) (fresh m) := fun m =>
    fresh_agrees (.itself m)
  have hunreachable : ∀ i, Polices (warn (.unreachable (ps[i]?.getD .wildcard) i))
      (warn (.unreachable (ps[i]?.getD .wildcard) i)) := fun i => .warn (by simp [Fault.kind])
  refine (Polices.of_agrees (hfresh _) (hfresh _)).bind fun missing => ?_
  cases missing.isEmpty with
  | true => exact .forM hunreachable _
  | false => exact (Polices.failAt_warn e rfl).bind fun _ => .forM hunreachable _

/-- What a strict context infers is what is inferred without a warning of a match. -/
def policing (c : Context) : Comparison { c with strict := true } { c with strict := false } where
  holds := Polices
  bind := Polices.bind
  same hm := .of_agrees hm hm
  name env name := .of_agrees (inferName_agrees (.strict c true false) env name)
    (inferName_agrees (.strict c false true) env name)
  call env name args types :=
    .of_agrees (inferCall_agrees (.strict c true false) env name args types)
      (inferCall_agrees (.strict c false true) env name args types)
  review := reviewCases_polices

end Inference

namespace Checker

open Inference

/-- The same checker with other options. -/
def choosing (c : Checker) (options : Options) : Checker := { c with options }

/-- A check infers a type from nothing, and tells it as far as it is known in the end. -/
theorem check_eq_ok_iff {c : Checker} {e : Expr} {v : Verdict} :
    ((check e).outcome c).1 = .ok v ↔
      ∃ s, (infer c.context c.env e >>= settleType c.context e).Returns c.inference.reset v.type s ∧
        s.warnings = v.warnings := by
  simp only [← returns_inferExpr_iff]
  cases h : (inferExpr c.context c.env e).outcome c.inference with
  | mk r s =>
      cases r with
      | ok t =>
          rw [outcome_check_of_ok h]
          simp only [Attempt.Returns, h]
          constructor
          · intro hv
            cases hv
            exact ⟨s, rfl, rfl⟩
          · rintro ⟨s', hrun, hwarnings⟩
            cases hrun
            rw [hwarnings]
      | error f =>
          rw [outcome_check_of_error h]
          simp [Attempt.Returns, h]

theorem check_strict (c : Checker) (e : Expr) (v : Verdict) :
    ((check e).outcome (c.choosing { c.options with strict := true })).1 = .ok v ↔
      ((check e).outcome (c.choosing { c.options with strict := false })).1 = .ok v ∧
        ∀ f ∈ v.warnings, f.kind ≠ .nonExhaustiveMatch := by
  have hpolices : ∀ s t s', _ ↔ _ :=
    (policing c.context).settle (.strict c.context true false) c.env e
  have hreset : c.inference.reset.IsExhaustive := fun f hf => absurd hf List.not_mem_nil
  rw [check_eq_ok_iff, check_eq_ok_iff]
  constructor
  · rintro ⟨s, hrun, hwarnings⟩
    obtain ⟨hrun', hs⟩ := (hpolices _ _ s).1 ⟨hrun, hreset⟩
    exact ⟨⟨s, hrun', hwarnings⟩, hwarnings ▸ hs⟩
  · rintro ⟨⟨s, hrun', hwarnings⟩, hv⟩
    have hs : s.IsExhaustive := fun f hf => hv f (hwarnings ▸ hf)
    exact ⟨s, ((hpolices _ _ s).2 ⟨hrun', hs⟩).1, hwarnings⟩

theorem check_lenient (c : Checker) (e : Expr) (v : Verdict)
    (h : ((check e).outcome (c.choosing { c.options with lenient := false })).1 = .ok v) :
    ((check e).outcome (c.choosing { c.options with lenient := true })).1 = .ok v := by
  have heases : (c.choosing { c.options with lenient := false }).context.Eases
      (c.choosing { c.options with lenient := true }).context := ⟨rfl, rfl, rfl, fun _ => rfl⟩
  rw [check_eq_ok_iff] at h ⊢
  obtain ⟨s, hrun, hwarnings⟩ := h
  exact ⟨s, ((easing heases rfl).settle heases c.env e _ _ s hrun).1, hwarnings⟩

/-- Options are conservative. A strict check succeeds just where a check that is not strict succeeds
without a warning that a match leaves out a value, and tells the same; and what a check tells that is
not lenient, a lenient one tells as well. -/
theorem check_conservative (c : Checker) (e : Expr) (v : Verdict) :
    (((check e).outcome (c.choosing { c.options with strict := true })).1 = .ok v ↔
      ((check e).outcome (c.choosing { c.options with strict := false })).1 = .ok v ∧
        ∀ f ∈ v.warnings, f.kind ≠ .nonExhaustiveMatch) ∧
    (((check e).outcome (c.choosing { c.options with lenient := false })).1 = .ok v →
      ((check e).outcome (c.choosing { c.options with lenient := true })).1 = .ok v) :=
  ⟨check_strict c e v, check_lenient c e v⟩

end Checker

end Formulary
