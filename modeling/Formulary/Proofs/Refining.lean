import Formulary.Proofs.Solutions

namespace Formulary

/-- One substitution comes from another by finding out more. -/
def Subst.RefinedTo : Subst → Subst → Prop :=
  Relation.ReflTransGen fun s s' => ∃ found, s' = s.compose found

theorem Subst.apply_compose_of_isQuantifierFree (s found : Subst) {t : Ty}
    (h : t.isQuantifierFree = true) : (s.compose found).apply t = found.apply (s.apply t) := by
  rw [apply_eq_bind, apply_eq_bind, apply_eq_bind, Ty.bind_bind_of_isQuantifierFree _ _ h]
  exact Ty.bind_congr fun x _ => by rw [image_compose, apply_eq_bind]

theorem Subst.apply_compose (s found : Subst) {t : Ty} (h : t.isMono = true) :
    (s.compose found).apply t = found.apply (s.apply t) :=
  apply_compose_of_isQuantifierFree s found (Ty.isQuantifierFree_of_isMono h)

theorem Subst.RefinedTo.exists_bind {s s' : Subst} (h : s.RefinedTo s') (hs : s.MonoRange) :
    ∃ δ : Valuation, ∀ t : Ty, t.isMono = true → s'.apply t = (s.apply t).bind δ := by
  induction h with
  | refl => exact ⟨.var, fun t _ => (Ty.bind_var _).symm⟩
  | tail _ hstep ih =>
      obtain ⟨found, rfl⟩ := hstep
      obtain ⟨δ, hδ⟩ := ih
      refine ⟨fun x => (δ x).bind found.image, fun t ht => ?_⟩
      rw [apply_compose _ _ ht, hδ t ht, apply_eq_bind, Ty.bind_bind _ _ (isMono_apply hs ht)]

/-- Under what is known in the end, what was known before has not changed. -/
theorem Subst.RefinedTo.solves {s s' : Subst} (h : s.RefinedTo s') (hs : s.Settled)
    (hmono : s.MonoRange) : Valuation.Solves s'.image s := by
  obtain ⟨δ, hδ⟩ := h.exists_bind hmono
  intro x
  calc (s.image x).bind s'.image
      = (s.apply (s.image x)).bind δ := by rw [← apply_eq_bind, hδ _ (hmono x)]
    _ = (s.image x).bind δ := by rw [apply_eq_bind, hs.bind_image]
    _ = s'.image x := by rw [← apply_var, ← apply_var, hδ _ rfl]

theorem Subst.RefinedTo.apply_eq {s s' : Subst} (h : s.RefinedTo s') (hs : s.Settled)
    (hmono : s.MonoRange) {t : Ty} (ht : t.isMono = true) : s'.apply t = s'.apply (s.apply t) := by
  rw [apply_eq_bind, apply_eq_bind s' (s.apply t), (h.solves hs hmono).bind_apply ht]

namespace Inference

variable {α β : Type}

/-- What can be said of a state and any later one. Inference finds out more and keeps the variables
of further names; whatever else it changes does not matter. -/
class Lasting (R : State → State → Prop) : Prop where
  trans {s s' s'' : State} : R s s' → R s' s'' → R s s''
  quiet {s s' : State} : s'.subst = s.subst → s'.free = s.free → R s s'
  refine (s : State) (found : Subst) : R s (s.refine found)
  record (s : State) (name : String) (id : Int) : R s { s with free := (name, id) :: s.free }

/-- Steps behind which a state is related to the one before. -/
def Moves (R : State → State → Prop) (m : Infer α) : Prop := ∀ s : State, R s (m.outcome s).2

theorem Moves.of_returns {R : State → State → Prop} {m : Infer α} (hm : Moves R m) {s s' : State}
    {a : α} (h : m.Returns s a s') : R s s' := by
  have hmoves := hm s
  rwa [h] at hmoves

section

variable {R : State → State → Prop} [hR : Lasting R]

theorem Quiet.moves {m : Infer α} (h : Quiet m) : Moves R m := fun s => hR.quiet (h s).1 (h s).2

namespace Moves

theorem pure (a : α) : Moves R (pure a) := fun _ => hR.quiet rfl rfl

theorem throw (f : Fault) : Moves R (throw f : Infer α) := fun _ => hR.quiet rfl rfl

theorem bind {m : Infer α} {f : α → Infer β} (hm : Moves R m) (hf : ∀ a, Moves R (f a)) :
    Moves R (m >>= f) := by
  intro s
  have hfirst := hm s
  rw [Attempt.outcome_bind]
  cases h : m.outcome s with
  | mk r s₁ =>
      rw [h] at hfirst
      cases r with
      | ok a => exact hR.trans hfirst (hf a s₁)
      | error e => exact hfirst

theorem tryCatch {m : Infer α} {f : Fault → Infer α} (hm : Moves R m) (hf : ∀ e, Moves R (f e)) :
    Moves R (tryCatch m f) := by
  intro s
  have hfirst := hm s
  rw [Attempt.outcome_tryCatch]
  cases h : m.outcome s with
  | mk r s₁ =>
      rw [h] at hfirst
      cases r with
      | ok a => exact hfirst
      | error e => exact hR.trans hfirst (hf e s₁)

omit hR in
theorem ite {c : Prop} [Decidable c] {m m' : Infer α} (hthen : Moves R m) (helse : Moves R m') :
    Moves R (if c then m else m') := by
  split
  · exact hthen
  · exact helse

theorem mapM {f : α → Infer β} (h : ∀ a, Moves R (f a)) (l : List α) : Moves R (l.mapM f) := by
  induction l with
  | nil => exact .pure []
  | cons a l ih =>
      rw [List.mapM_cons]
      exact (h a).bind fun b => ih.bind fun bs => .pure (b :: bs)

end Moves

theorem known_moves (t : Ty) : Moves R (known t) := fun _ => hR.quiet rfl rfl

theorem fresh_moves (steps : Fresh α) : Moves R (fresh steps) := (fresh_quiet steps).moves

theorem failAt_moves (e : Expr) (f : Fault) : Moves R (failAt e f : Infer α) :=
  (failAt_quiet e f).moves

theorem blaming_moves {e : Expr} {steps : Infer α} (h : Moves R steps) :
    Moves R (blaming e steps) :=
  h.tryCatch fun _ => failAt_moves e _

theorem freeName_moves (name : String) : Moves R (freeName name) := by
  intro s
  unfold freeName
  rw [Attempt.outcome_bind, Attempt.outcome_get]
  dsimp only
  split
  · exact hR.quiet rfl rfl
  · have hrecord : Moves R (do
        let id ← fresh (Supply.fresh : StateM Supply Int)
        modify fun s => { s with free := (name, id) :: s.free }
        return Ty.var id) :=
      (fresh_moves _).bind fun id => .bind (fun s => hR.record s name id) fun _ => .pure _
    exact hrecord s

theorem unify_moves (c : Context) (a b : Ty) : Moves R (unify c a b) := by
  intro s
  obtain ⟨line, hrun⟩ := outcome_unify c a b s
  have hlogged : R s (s.logged c line) := hR.quiet (s.logged_subst c line) (s.logged_free c line)
  rw [hrun]
  cases Ty.unify (s.subst.apply a) (s.subst.apply b) with
  | ok found => exact hR.trans hlogged (hR.refine _ found)
  | error e => exact hlogged

theorem bindPattern_moves (c : Context) (e : Expr) (p : Pattern) (scrutinee : Ty) :
    Moves R (bindPattern c e p scrutinee) := by
  intro s
  rw [outcome_bindPattern]
  cases Attempt.outcome (p.check c.data (s.subst.apply scrutinee)) s.supply with
  | mk r supply =>
      cases r with
      | ok typing =>
          have hsupply : R s { s with supply := supply } := hR.quiet rfl rfl
          exact hR.trans hsupply (hR.refine _ typing.subst)
      | error f => exact hR.quiet rfl rfl

theorem bindValue_moves (c : Context) (kind : ParamKind) (field : Ty) (refusal : Fault)
    (actual : Ty) : Moves R (bindValue c kind field refusal actual) := by
  cases actual with
  | var => exact .pure ()
  | prim => exact .ite (.pure ()) (.throw _)
  | nat | tag =>
      refine .ite ?_ (.throw _)
      split
      · exact unify_moves c _ _
      · exact .pure ()
  | blank | data | fn | poly => exact .throw _

theorem bindField_moves (c : Context) (v : VariantInstance) (index : Nat) (field : FieldInstance)
    (arg : Expr) (argType : Ty) : Moves R (bindField c v index field arg argType) := by
  unfold bindField
  refine .ite (unify_moves c _ _) ?_
  split
  · split
    · exact unify_moves c _ _
    · exact .pure ()
  · exact .throw _
  · exact (known_moves argType).bind fun actual => bindValue_moves c _ _ _ actual

theorem bindFields_moves (c : Context) (v : VariantInstance) (index : Nat)
    (fields : List FieldInstance) (args : List (Expr × Ty)) :
    Moves R (bindFields c v index fields args) := by
  fun_induction bindFields c v index fields args with
  | case1 index field fields arg argType args ih =>
      exact (bindField_moves c v index field arg argType).bind fun _ => ih
  | case2 => exact .pure ()

theorem bindElements_moves (c : Context) (element : Ty) (args : List (Expr × Ty)) :
    Moves R (bindElements c element args) := by
  induction args with
  | nil => exact .pure ()
  | cons arg args ih => exact (blaming_moves (unify_moves c element arg.2)).bind fun _ => ih

theorem inferConstruction_moves (c : Context) (e : Expr) (name : String)
    (args : List (Expr × Ty)) : Moves R (inferConstruction c e name args) := by
  refine (blaming_moves (fresh_moves _)).bind fun v => .ite ?_ (.ite ?_ ?_)
  · exact (blaming_moves (bindFields_moves c v 0 _ _)).bind fun _ => known_moves _
  · exact (blaming_moves (bindFields_moves c v 0 _ _)).bind fun _ =>
      (bindElements_moves c _ _).bind fun _ => known_moves _
  · exact (failAt_moves e _).bind fun _ => known_moves _

theorem unifyFor_moves (c : Context) (requirer : Requirer) (e : Expr) (a b : Ty) :
    Moves R (unifyFor c requirer e a b) :=
  (unify_moves c a b).tryCatch fun _ => failAt_moves e _

theorem inferApplication_moves (c : Context) (e : Expr) (name : String) (t : Ty)
    (args : List Ty) : Moves R (inferApplication c e name t args) := by
  have hrest : ∀ fn, Moves R (do
      let result ← freshVar
      unifyFor c (.function name) e fn (Ty.curry args result)
      known result) := fun fn =>
    ((fresh_moves _).bind fun _ => .pure _).bind fun result =>
      (unifyFor_moves c _ e fn _).bind fun _ => known_moves result
  refine (fresh_moves _).bind fun fn => (known_moves fn).bind fun fn' => ?_
  split
  · exact .ite ((failAt_moves e _).bind fun _ => hrest fn) (hrest fn)
  · exact hrest fn

theorem meetConstraints_moves (c : Context) (requirer : Requirer) (e : Expr)
    (constraints : List Signature.Constraint) :
    Moves R (meetConstraints c requirer e constraints) := by
  induction constraints with
  | nil => exact .pure ()
  | cons k rest ih => exact (unifyFor_moves c requirer e _ _).bind fun _ => ih

theorem inferOperation_moves (c : Context) (e : Expr) (s : Structure) (op : Operation)
    (args : List Ty) : Moves R (inferOperation c e s op args) := by
  have hargs : Moves R (args.mapM known) := .mapM known_moves args
  refine hargs.bind fun before => (blaming_moves (fresh_moves _)).bind fun o =>
    (meetConstraints_moves c _ e _).bind fun _ => .ite ?_ (known_moves _)
  exact hargs.bind fun after => (blaming_moves (fresh_moves _)).bind fun _ => known_moves _

theorem inferName_moves (c : Context) (env : TypeEnv) (name : String) :
    Moves R (inferName c env name) := by
  unfold inferName
  split
  · exact fresh_moves _
  · split
    · exact inferConstruction_moves c _ name []
    · exact .ite (inferOperation_moves c _ _ _ []) (freeName_moves name)
    · exact freeName_moves name

theorem inferCall_moves (c : Context) (env : TypeEnv) (name : String) (args : List Expr)
    (types : List Ty) : Moves R (inferCall c env name args types) := by
  unfold inferCall
  refine .ite (inferConstruction_moves c _ name _) ?_
  split
  · exact inferApplication_moves c _ name _ types
  · exact inferOperation_moves c _ _ _ types
  · exact failAt_moves _ _

mutual

theorem infer_moves (c : Context) (env : TypeEnv) (e : Expr) : Moves R (infer c env e) := by
  cases e with
  | blank => exact .throw _
  | const value => exact .pure _
  | object name => exact inferName_moves c env name
  | operation name args =>
      rw [infer]
      exact (inferList_moves c env args).bind fun types => inferCall_moves c env name args types
  | matching scrutinee cases =>
      rw [infer]
      have hrest : Moves R (do
          let t ← infer c env scrutinee
          let result ← inferCases c env (.matching scrutinee cases) t none cases
          reviewCases c (.matching scrutinee cases) (← known t) (cases.map (·.1))
          known (result.getD .blank)) := by
        refine (infer_moves c env scrutinee).bind fun t => ?_
        refine (inferCases_moves c env _ t none cases).bind fun result => ?_
        refine (known_moves t).bind fun t' => ?_
        exact (reviewCases_quiet c _ t' _).moves.bind fun _ => known_moves _
      refine .ite ?_ hrest
      rw [failAt_bind]
      exact failAt_moves _ _

theorem inferList_moves (c : Context) (env : TypeEnv) (es : List Expr) :
    Moves R (inferList c env es) := by
  cases es with
  | nil => exact .pure []
  | cons e es =>
      rw [inferList]
      exact (infer_moves c env e).bind fun t => (inferList_moves c env es).bind fun ts =>
        .pure (t :: ts)

theorem inferCases_moves (c : Context) (env : TypeEnv) (e : Expr) (scrutinee : Ty)
    (result : Option Ty) (cases : List (Pattern × Expr)) :
    Moves R (inferCases c env e scrutinee result cases) := by
  match cases with
  | [] =>
      rw [inferCases]
      exact .pure result
  | (p, body) :: rest =>
      rw [inferCases]
      refine (bindPattern_moves c e p scrutinee).bind fun bindings =>
        (infer_moves c _ body).bind fun t => ?_
      cases result with
      | none => exact inferCases_moves c env e scrutinee (some t) rest
      | some result =>
          exact (blaming_moves (unify_moves c result t)).bind fun _ =>
            inferCases_moves c env e scrutinee (some result) rest

end

end

/-- Steps that change the substitution only by finding out more. -/
def Refines (m : Infer α) : Prop := ∀ s : State, s.subst.RefinedTo (m.outcome s).2.subst

/-- More is found out about variables. -/
def State.Refined (s s' : State) : Prop := s.subst.RefinedTo s'.subst

instance : Lasting State.Refined where
  trans h h' := Relation.ReflTransGen.trans h h'
  quiet h _ := by
    rw [State.Refined, h]
    exact .refl
  refine _ found := .single ⟨found, rfl⟩
  record _ _ _ := .refl

theorem Quiet.refines {m : Infer α} (h : Quiet m) : Refines m := h.moves (R := State.Refined)

theorem Refines.bind {m : Infer α} {f : α → Infer β} (hm : Refines m) (hf : ∀ a, Refines (f a)) :
    Refines (m >>= f) :=
  Moves.bind (R := State.Refined) hm hf

theorem known_refines (t : Ty) : Refines (known t) := known_moves (R := State.Refined) t

theorem bindField_refines (c : Context) (v : VariantInstance) (index : Nat) (field : FieldInstance)
    (arg : Expr) (argType : Ty) : Refines (bindField c v index field arg argType) :=
  bindField_moves (R := State.Refined) c v index field arg argType

theorem bindFields_refines (c : Context) (v : VariantInstance) (index : Nat)
    (fields : List FieldInstance) (args : List (Expr × Ty)) :
    Refines (bindFields c v index fields args) :=
  bindFields_moves (R := State.Refined) c v index fields args

theorem inferCall_refines (c : Context) (env : TypeEnv) (name : String) (args : List Expr)
    (types : List Ty) : Refines (inferCall c env name args types) :=
  inferCall_moves (R := State.Refined) c env name args types

theorem inferList_refines (c : Context) (env : TypeEnv) (es : List Expr) :
    Refines (inferList c env es) :=
  inferList_moves (R := State.Refined) c env es

theorem inferCases_refines (c : Context) (env : TypeEnv) (e : Expr) (scrutinee : Ty)
    (result : Option Ty) (cases : List (Pattern × Expr)) :
    Refines (inferCases c env e scrutinee result cases) :=
  inferCases_moves (R := State.Refined) c env e scrutinee result cases

mutual

/-- What has a type leaves nothing blank. -/
theorem isWhole_of_infer {c : Context} {env : TypeEnv} {e : Expr} {t : Ty} {s s' : State}
    (h : (infer c env e).Returns s t s') : e.isWhole = true := by
  cases e with
  | blank => cases h
  | const | object => rfl
  | operation name args =>
      rw [infer] at h
      obtain ⟨types, s₁, hargs, -⟩ := Attempt.returns_bind_iff.1 h
      exact isWholeList_of_inferList hargs
  | matching scrutinee cases =>
      rw [infer] at h
      split at h
      · cases h
      · obtain ⟨t, s₁, hscrutinee, h⟩ := Attempt.returns_bind_iff.1 h
        obtain ⟨result, s₂, hcases, -⟩ := Attempt.returns_bind_iff.1 h
        rw [Expr.isWhole, Bool.and_eq_true]
        exact ⟨isWhole_of_infer hscrutinee, isWholeCases_of_inferCases hcases⟩

theorem isWholeList_of_inferList {c : Context} {env : TypeEnv} {es : List Expr} {ts : List Ty}
    {s s' : State} (h : (inferList c env es).Returns s ts s') : Expr.isWholeList es = true := by
  cases es with
  | nil => rfl
  | cons e es =>
      rw [inferList] at h
      obtain ⟨t, s₁, hfirst, h⟩ := Attempt.returns_bind_iff.1 h
      obtain ⟨us, s₂, hrest, -⟩ := Attempt.returns_bind_iff.1 h
      rw [Expr.isWholeList, Bool.and_eq_true]
      exact ⟨isWhole_of_infer hfirst, isWholeList_of_inferList hrest⟩

theorem isWholeCases_of_inferCases {c : Context} {env : TypeEnv} {e : Expr} {scrutinee : Ty}
    {result result' : Option Ty} {cases : List (Pattern × Expr)} {s s' : State}
    (h : (inferCases c env e scrutinee result cases).Returns s result' s') :
    Expr.isWholeCases cases = true := by
  match cases with
  | [] => rfl
  | (p, body) :: rest =>
      rw [inferCases] at h
      obtain ⟨bindings, s₁, -, h⟩ := Attempt.returns_bind_iff.1 h
      obtain ⟨t, s₂, hbody, h⟩ := Attempt.returns_bind_iff.1 h
      rw [Expr.isWholeCases, Bool.and_eq_true]
      refine ⟨isWhole_of_infer hbody, ?_⟩
      cases result with
      | none => exact isWholeCases_of_inferCases h
      | some result =>
          obtain ⟨_, s₃, -, h⟩ := Attempt.returns_bind_iff.1 h
          exact isWholeCases_of_inferCases h

end

end Inference

end Formulary
