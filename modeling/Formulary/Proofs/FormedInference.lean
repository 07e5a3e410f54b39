import Formulary.Proofs.Forming

namespace Formulary

/-- The types of known names are formed as declared. -/
def DataTypes.FormsEnv (r : DataTypes) (env : TypeEnv) : Prop :=
  ∀ name t, env.get? name = some t → r.Forms t

theorem DataTypes.FormsEnv.extend {r : DataTypes} {env : TypeEnv} (h : r.FormsEnv env)
    {bindings : List (String × Ty)} (hbindings : ∀ b ∈ bindings, r.Forms b.2) :
    r.FormsEnv (env.extend bindings) := by
  intro name t ht
  rcases Inference.get?_extend ht with ht | ht
  · exact h name t ht
  · exact hbindings (name, t) ht

theorem DataTypes.FormsEnv.extendOne {r : DataTypes} {env : TypeEnv} (h : r.FormsEnv env)
    (name : String) {t : Ty} (ht : r.Forms t) : r.FormsEnv (env.extend [(name, t)]) :=
  h.extend (List.forall_mem_singleton.2 ht)

namespace Inference

/-- Everything that the substitutions of inference have put is formed as declared. -/
structure State.Formed (r : DataTypes) (s : State) : Prop where
  subst : s.subst.Formed r.Declares
  held : ∀ h ∈ s.held, h.1.Formed r.Declares

/-- Steps of inference where all types are formed as declared. -/
def forming (r : DataTypes) : Regime State Fault := ⟨State.Formed r, Fault.IsAligned⟩

section

variable {α : Type} {r : DataTypes} {p : α → Prop}

theorem State.Formed.hold {s : State} (h : s.Formed r) {subst : Subst}
    (hsubst : subst.Formed r.Declares) : (s.hold subst).Formed r :=
  ⟨hsubst, List.forall_mem_cons.2 ⟨hsubst, h.held⟩⟩

theorem State.Formed.refine {s : State} (h : s.Formed r) {found : Subst}
    (hfound : found.Formed r.Declares) : (s.refine found).Formed r :=
  h.hold (h.subst.compose hfound)

theorem State.Formed.reset {s : State} (h : s.Formed r) : s.reset.Formed r :=
  ⟨Subst.formed_empty, List.forall_mem_cons.2 ⟨Subst.formed_empty, h.held⟩⟩

theorem State.Formed.logged {s : State} (h : s.Formed r) (c : Context) (line : String) :
    (s.logged c line).Formed r := by
  unfold State.logged
  split
  · exact ⟨h.subst, h.held⟩
  · exact h

theorem modify_forms {change : State → State} (hsubst : ∀ s, (change s).subst = s.subst)
    (hheld : ∀ s, (change s).held = s.held) :
    Upholds (forming r) (modify change : Infer PUnit) fun _ => True :=
  .modify fun s hs => ⟨(hsubst s).symm ▸ hs.subst, (hheld s).symm ▸ hs.held⟩

theorem failAt_forms {e : Expr} {f : Fault} (h : f.IsAligned) :
    Upholds (forming r) (failAt e f : Infer α) p :=
  .bind (modify_forms (fun _ => by rfl) fun _ => by rfl) fun _ _ => .throw h

theorem blaming_forms {e : Expr} {steps : Infer α} (h : Upholds (forming r) steps p) :
    Upholds (forming r) (blaming e steps) p :=
  h.tryCatch fun _ hf => failAt_forms hf

theorem warn_forms (f : Fault) : Upholds (forming r) (warn f) fun _ => True :=
  modify_forms (fun _ => rfl) fun _ => rfl

theorem log_forms (line : String) : Upholds (forming r) (log line) fun _ => True :=
  modify_forms (fun _ => rfl) fun _ => rfl

theorem fresh_forms {steps : Fresh α} (h : Upholds (aligned Supply) steps p) :
    Upholds (forming r) (fresh steps) p :=
  h.zoom (fun _ _ => trivial) (fun _ _ hs _ => ⟨hs.subst, hs.held⟩) fun _ he => he

theorem freshVar_forms : Upholds (forming r) freshVar r.Forms :=
  (fresh_forms (liftState_upholds (p := fun _ => True) fun _ => trivial)).bind fun id _ =>
    .pure (Ty.formed_var id)

theorem instantiate_forms {t : Ty} (ht : r.Forms t) :
    Upholds (forming r) (instantiate t) r.Forms :=
  fresh_forms (liftState_upholds ht.instantiate)

theorem known_forms {t : Ty} (ht : r.Forms t) : Upholds (forming r) (known t) r.Forms :=
  (Upholds.get fun _ hs => State.Formed.subst hs).bind fun _ hsubst =>
    .pure (Subst.Formed.apply hsubst ht)

theorem mapM_known_forms {ts : List Ty} (hts : ∀ t ∈ ts, r.Forms t) :
    Upholds (forming r) (ts.mapM known) fun us => ∀ u ∈ us, r.Forms u :=
  (Upholds.mapM fun t ht => known_forms (hts t ht)).imp fun _ => forall_of_forall₂

theorem freeName_forms (name : String) : Upholds (forming r) (freeName name) r.Forms := by
  refine (Upholds.get (p := fun _ => True) fun _ _ => trivial).bind fun s _ => ?_
  split
  · exact .pure (Ty.formed_var _)
  · refine (fresh_forms (liftState_upholds (p := fun _ => True) fun _ => trivial)).bind fun id _ => ?_
    refine .bind (modify_forms (fun _ => by rfl) fun _ => by rfl) fun _ _ => ?_
    exact .pure (Ty.formed_var id)

theorem requireIdempotent_forms : Upholds (forming r) requireIdempotent fun _ => True :=
  (Upholds.get (p := fun _ => True) fun _ _ => trivial).bind fun _ _ =>
    .ite (fun _ => .pure trivial) fun _ => .throw trivial

theorem reviewCases_forms (c : Context) (e : Expr) (scrutinee : Ty) (ps : List Pattern) :
    Upholds (forming r) (reviewCases c e scrutinee ps) fun _ => True := by
  have hunreachable : Upholds (forming r)
      ((Pattern.unreachable ps).forM fun i => warn (.unreachable (ps[i]?.getD .wildcard) i))
      fun _ => True := .forM fun _ _ => warn_forms _
  refine (fresh_forms (liftState_upholds (p := fun _ => True) fun _ => trivial)).bind
    fun missing _ => ?_
  refine .ite (fun _ => hunreachable) fun _ => .ite (fun _ => ?_) fun _ => ?_
  · rw [failAt_bind]
    exact failAt_forms trivial
  · exact (warn_forms _).bind fun _ _ => hunreachable

end

variable {c : Context}

theorem unify_forms (hc : c.data.Grounded) {a b : Ty} (ha : c.data.Forms a) (hb : c.data.Forms b) :
    Upholds (forming c.data) (unify c a b) fun _ => True := by
  intro s hs
  obtain ⟨line, hrun⟩ := outcome_unify c a b s
  have hunify := Ty.unify_ends hc.fixed (hs.subst.apply ha) (hs.subst.apply hb)
  have hlogged := State.Formed.logged hs c line
  rw [hrun]
  revert hunify
  cases Ty.unify (s.subst.apply a) (s.subst.apply b) with
  | ok found => exact fun hfound => ⟨hlogged.refine hfound, trivial⟩
  | error e => exact fun he => ⟨hlogged, he⟩

theorem annotated_forms (hc : c.data.Grounded) {scope : Scope} (hscope : c.data.FormsScope scope)
    (names : Annotations) (e : TypeExpr) :
    Upholds (forming c.data) (annotated c scope names e) fun a => c.data.Forms a.1 := by
  refine fresh_forms fun u _ => ⟨trivial, ?_⟩
  have hresolve := (hc.resolve_forms hscope true e ⟨u, names⟩ trivial).2
  show Ends _ _ ((Attempt.outcome (c.data.resolve scope true e) ⟨u, names⟩).1.map
    (·, (Attempt.outcome (c.data.resolve scope true e) ⟨u, names⟩).2.vars))
  exact Ty.ends_map hresolve fun _ ht => ht

theorem annotatedList_forms (hc : c.data.Grounded) {scope : Scope}
    (hscope : c.data.FormsScope scope) (names : Annotations) (es : List TypeExpr) :
    Upholds (forming c.data) (annotatedList c scope names es) fun a => ∀ t ∈ a.1, c.data.Forms t := by
  induction es generalizing names with
  | nil => exact .pure (List.forall_mem_nil _)
  | cons e es ih =>
      refine (annotated_forms hc hscope names e).bind fun a ha => ?_
      exact (ih a.2).bind fun as has => .pure (List.forall_mem_cons.2 ⟨ha, has⟩)

theorem bindPattern_forms (hc : c.data.Grounded) (e : Expr) (p : Pattern) {scrutinee : Ty}
    (hscrutinee : c.data.Forms scrutinee) :
    Upholds (forming c.data) (bindPattern c e p scrutinee) c.data.FormsEnv := by
  refine (known_forms hscrutinee).bind fun t ht => ?_
  refine (blaming_forms (fresh_forms (Pattern.check_forms hc p ht))).bind fun typing htyping => ?_
  refine (Upholds.modify fun s hs => State.Formed.refine hs htyping.subst).bind fun _ _ => ?_
  exact .pure htyping.bindings

theorem forms_literal? {r : DataTypes} {kind : ParamKind} {arg : Expr} {t : Ty}
    (h : literal? kind arg = some t) : r.Forms t := by
  unfold literal? at h
  split at h
  · obtain ⟨n, -, rfl⟩ := Option.map_eq_some_iff.1 h
    exact Ty.formed_nat _
  · obtain ⟨tag, -, rfl⟩ := Option.map_eq_some_iff.1 h
    exact Ty.formed_tag _
  · cases h

theorem bindValue_forms (hc : c.data.Grounded) (kind : ParamKind) {field : Ty}
    (hfield : c.data.Forms field) (refusal : Fault) (hrefusal : refusal.IsAligned) {actual : Ty}
    (hactual : c.data.Forms actual) :
    Upholds (forming c.data) (bindValue c kind field refusal actual) fun _ => True := by
  cases actual with
  | var => exact .pure trivial
  | prim => exact .ite (fun _ => .pure trivial) fun _ => .throw hrefusal
  | nat | tag =>
      refine .ite (fun _ => ?_) fun _ => .throw hrefusal
      split
      · exact unify_forms hc hfield hactual
      · exact .pure trivial
  | blank | data | fn | poly => exact .throw hrefusal

theorem bindField_forms (hc : c.data.Grounded) (v : VariantInstance) (index : Nat)
    {field : FieldInstance} (hfield : c.data.Forms field.type) (arg : Expr) {argType : Ty}
    (harg : c.data.Forms argType) :
    Upholds (forming c.data) (bindField c v index field arg argType) fun _ => True := by
  unfold bindField
  refine .ite (fun _ => unify_forms hc hfield harg) fun _ => ?_
  split
  · rename_i value hvalue
    split
    · rename_i hvar
      exact unify_forms hc (hvar ▸ hfield) (forms_literal? hvalue)
    · exact .pure trivial
  · exact .throw trivial
  · refine (known_forms harg).bind fun actual hactual => ?_
    exact bindValue_forms hc field.kind hfield (.notLiteral ..) trivial hactual

theorem bindFields_forms (hc : c.data.Grounded) (v : VariantInstance) (index : Nat)
    {fields : List FieldInstance} (hfields : ∀ f ∈ fields, c.data.Forms f.type)
    {args : List (Expr × Ty)} (hargs : ∀ a ∈ args, c.data.Forms a.2) :
    Upholds (forming c.data) (bindFields c v index fields args) fun _ => True := by
  induction fields generalizing index args with
  | nil =>
      rw [bindFields]
      · exact .pure trivial
      · simp
  | cons field fields ih =>
      cases args with
      | nil =>
          rw [bindFields]
          · exact .pure trivial
          · simp
      | cons arg args =>
          rw [List.forall_mem_cons] at hfields hargs
          rw [bindFields]
          exact (bindField_forms hc v index hfields.1 arg.1 hargs.1).bind fun _ _ =>
            ih (index + 1) hfields.2 hargs.2

theorem bindElements_forms (hc : c.data.Grounded) {element : Ty} (helement : c.data.Forms element)
    {args : List (Expr × Ty)} (hargs : ∀ a ∈ args, c.data.Forms a.2) :
    Upholds (forming c.data) (bindElements c element args) fun _ => True := by
  induction args with
  | nil => exact .pure trivial
  | cons arg args ih =>
      rw [List.forall_mem_cons] at hargs
      exact (blaming_forms (unify_forms hc helement hargs.1)).bind fun _ _ => ih hargs.2

theorem inferConstruction_forms (hc : c.data.Grounded) (e : Expr) (name : String)
    {args : List (Expr × Ty)} (hargs : ∀ a ∈ args, c.data.Forms a.2) :
    Upholds (forming c.data) (inferConstruction c e name args) c.data.Forms := by
  refine (blaming_forms (fresh_forms (hc.instantiate_forms name))).bind fun v hv => ?_
  refine .ite (fun _ => ?_) fun _ => .ite (fun _ => ?_) fun _ => ?_
  · exact (blaming_forms (bindFields_forms hc v 0 hv.2 hargs)).bind fun _ _ => known_forms hv.1
  · have hlast : c.data.Forms ((v.fields.getLast?.map (·.type)).getD .blank) := by
      cases hget : v.fields.getLast? with
      | none => exact Ty.formed_blank
      | some last => exact hv.2 last (List.mem_of_getLast? hget)
    refine (blaming_forms (bindFields_forms hc v 0 (fun f hf => hv.2 f (List.mem_of_mem_take hf))
      fun a ha => hargs a (List.mem_of_mem_take ha))).bind fun _ _ => ?_
    refine (bindElements_forms hc hlast fun a ha => hargs a (List.mem_of_mem_drop ha)).bind
      fun _ _ => known_forms hv.1
  · rw [failAt_bind]
    exact failAt_forms trivial

theorem isAligned_asDimensions (requirer : Requirer) {f : Fault} (h : f.IsAligned) :
    (asDimensions requirer f).IsAligned := by
  unfold asDimensions
  split
  · split
    · trivial
    · trivial
  · exact h

theorem unifyFor_forms (hc : c.data.Grounded) (requirer : Requirer) (e : Expr) {a b : Ty}
    (ha : c.data.Forms a) (hb : c.data.Forms b) :
    Upholds (forming c.data) (unifyFor c requirer e a b) fun _ => True :=
  (unify_forms hc ha hb).tryCatch fun _ hf => failAt_forms (isAligned_asDimensions requirer hf)

theorem inferApplication_forms (hc : c.data.Grounded) (e : Expr) (name : String) {t : Ty}
    (ht : c.data.Forms t) {args : List Ty} (hargs : ∀ a ∈ args, c.data.Forms a) :
    Upholds (forming c.data) (inferApplication c e name t args) c.data.Forms := by
  refine (instantiate_forms ht).bind fun fn hfn => (known_forms hfn).bind fun _ _ => ?_
  have hrest : Upholds (forming c.data) (do
      let result ← freshVar
      unifyFor c (.function name) e fn (Ty.curry args result)
      known result) c.data.Forms := by
    refine freshVar_forms.bind fun result hresult => ?_
    refine (unifyFor_forms hc _ e hfn (Ty.formed_curry_iff.2 ⟨hargs, hresult⟩)).bind fun _ _ => ?_
    exact known_forms hresult
  split
  · refine .ite (fun _ => ?_) fun _ => hrest
    rw [failAt_bind]
    exact failAt_forms trivial
  · exact hrest

theorem meetConstraints_forms (hc : c.data.Grounded) (requirer : Requirer) (e : Expr)
    {constraints : List Signature.Constraint}
    (h : ∀ k ∈ constraints, c.data.Forms k.expected ∧ c.data.Forms k.actual) :
    Upholds (forming c.data) (meetConstraints c requirer e constraints) fun _ => True := by
  induction constraints with
  | nil => exact .pure trivial
  | cons k rest ih =>
      rw [List.forall_mem_cons] at h
      exact (unifyFor_forms hc requirer e h.1.1 h.1.2).bind fun _ _ => ih h.2

theorem inferOperation_forms (hc : c.data.Grounded) (e : Expr) (s : Structure) (op : Operation)
    {args : List Ty} (hargs : ∀ a ∈ args, c.data.Forms a) :
    Upholds (forming c.data) (inferOperation c e s op args) c.data.Forms := by
  refine (mapM_known_forms hargs).bind fun before hbefore => ?_
  have hcall := Signature.Call.interpret_forms (c := ⟨c.registry, s, op, before, c.lenient⟩) hc hbefore
  refine (blaming_forms (fresh_forms hcall)).bind fun o ho => ?_
  refine (meetConstraints_forms hc _ e ho.2).bind fun _ _ => ?_
  refine .ite (fun _ => ?_) fun _ => known_forms ho.1
  refine (mapM_known_forms hargs).bind fun after _ => ?_
  exact (blaming_forms (fresh_forms (c.registry.validate_forms _ _ _))).bind fun _ _ =>
    known_forms ho.1

theorem inferName_forms (hc : c.data.Grounded) {env : TypeEnv} (henv : c.data.FormsEnv env)
    (name : String) : Upholds (forming c.data) (inferName c env name) c.data.Forms := by
  unfold inferName
  split
  · rename_i t ht
    exact instantiate_forms (henv name t ht)
  · split
    · exact inferConstruction_forms hc _ name (List.forall_mem_nil _)
    · exact .ite (fun _ => inferOperation_forms hc _ _ _ (List.forall_mem_nil _))
        fun _ => freeName_forms name
    · exact freeName_forms name

theorem inferCall_forms (hc : c.data.Grounded) {env : TypeEnv} (henv : c.data.FormsEnv env)
    (name : String) (args : List Expr) {types : List Ty} (htypes : ∀ t ∈ types, c.data.Forms t) :
    Upholds (forming c.data) (inferCall c env name args types) c.data.Forms := by
  unfold inferCall
  refine .ite (fun _ => ?_) fun _ => ?_
  · exact inferConstruction_forms hc _ name fun a ha => htypes a.2 (List.of_mem_zip ha).2
  · split
    · rename_i t ht
      exact inferApplication_forms hc _ name (henv name t ht) htypes
    · exact inferOperation_forms hc _ _ _ htypes
    · exact failAt_forms trivial

mutual

theorem infer_forms (hc : c.data.Grounded) {env : TypeEnv} (henv : c.data.FormsEnv env) (e : Expr) :
    Upholds (forming c.data) (infer c env e) c.data.Forms := by
  cases e with
  | blank => exact .throw trivial
  | const value => exact .pure hc.forms_scalar
  | object name => exact inferName_forms hc henv name
  | operation name args =>
      rw [infer]
      exact (inferList_forms hc henv args).bind fun types htypes =>
        inferCall_forms hc henv name args htypes
  | matching scrutinee cases =>
      rw [infer]
      refine .ite (fun _ => ?_) fun _ => ?_
      · rw [failAt_bind]
        exact failAt_forms trivial
      · refine (infer_forms hc henv scrutinee).bind fun t ht => ?_
        have hnone : ∀ t ∈ (none : Option Ty), c.data.Forms t := fun _ h => by cases h
        refine (inferCases_forms hc henv _ ht hnone cases).bind fun result hresult => ?_
        refine (known_forms ht).bind fun t' _ => (reviewCases_forms c _ t' _).bind fun _ _ => ?_
        refine known_forms ?_
        cases result with
        | none => exact Ty.formed_blank
        | some u => exact hresult u rfl

theorem inferList_forms (hc : c.data.Grounded) {env : TypeEnv} (henv : c.data.FormsEnv env)
    (es : List Expr) :
    Upholds (forming c.data) (inferList c env es) fun ts => ∀ t ∈ ts, c.data.Forms t := by
  match es with
  | [] => exact .pure (List.forall_mem_nil _)
  | e :: es =>
      rw [inferList]
      refine (infer_forms hc henv e).bind fun t ht => ?_
      exact (inferList_forms hc henv es).bind fun ts hts => .pure (List.forall_mem_cons.2 ⟨ht, hts⟩)

theorem inferCases_forms (hc : c.data.Grounded) {env : TypeEnv} (henv : c.data.FormsEnv env)
    (e : Expr) {scrutinee : Ty} (hscrutinee : c.data.Forms scrutinee) {result : Option Ty}
    (hresult : ∀ t ∈ result, c.data.Forms t) (cases : List (Pattern × Expr)) :
    Upholds (forming c.data) (inferCases c env e scrutinee result cases)
      fun u => ∀ t ∈ u, c.data.Forms t := by
  match cases with
  | [] =>
      rw [inferCases]
      exact .pure hresult
  | (p, body) :: rest =>
      rw [inferCases]
      refine (bindPattern_forms hc e p hscrutinee).bind fun bindings hbindings => ?_
      have hinner : c.data.FormsEnv (env.extend bindings.entries) := henv.extend fun b hb =>
        hbindings b.1 b.2 ((SortedMap.get?_eq_some_iff _ _ _).2 hb)
      refine (infer_forms hc hinner body).bind fun t ht => ?_
      cases result with
      | none =>
          exact inferCases_forms hc henv e hscrutinee (fun u hu => Option.some.inj hu ▸ ht) rest
      | some result =>
          refine (blaming_forms (unify_forms hc (hresult result rfl) ht)).bind fun _ _ => ?_
          exact inferCases_forms hc henv e hscrutinee hresult rest

end

theorem inferExpr_forms (hc : c.data.Grounded) {env : TypeEnv} (henv : c.data.FormsEnv env)
    (e : Expr) : Upholds (forming c.data) (inferExpr c env e) c.data.Forms := by
  have hrest : Upholds (forming c.data) (do
      modify State.reset
      let t ← infer c env e
      blaming e requireIdempotent
      let t ← known t
      if c.trace then
        log ("infer " ++ e.render ++ " : " ++ t.render ++ " (" ++ toString (← get).supply.count ++
          " type-variables)")
      return t) c.data.Forms := by
    refine (Upholds.modify fun s hs => State.Formed.reset hs).bind fun _ _ => ?_
    refine (infer_forms hc henv e).bind fun t ht => ?_
    refine (blaming_forms requireIdempotent_forms).bind fun _ _ => (known_forms ht).bind fun t' ht' => ?_
    refine .ite (fun _ => ?_) fun _ => .pure ht'
    refine (Upholds.get (p := fun _ => True) fun _ _ => trivial).bind fun s _ => ?_
    exact (log_forms _).bind fun _ _ => .pure ht'
  unfold inferExpr
  cases e with
  | blank => exact .throw trivial
  | const | object | operation | matching => exact hrest

theorem bindParams_forms (hc : c.data.Grounded) {env : TypeEnv} (henv : c.data.FormsEnv env)
    (names : Annotations) (ps : List Binder) :
    Upholds (forming c.data) (bindParams c env names ps)
      fun a => (∀ t ∈ a.1, c.data.Forms t) ∧ c.data.FormsEnv a.2.1 := by
  induction ps generalizing env names with
  | nil => exact .pure ⟨List.forall_mem_nil _, henv⟩
  | cons p rest ih =>
      rw [bindParams]
      refine freshVar_forms.bind fun var hvar => ?_
      have hrest : ∀ names', Upholds (forming c.data)
          (bindParams c (env.extend [(p.name, var)]) names' rest >>=
            fun a => pure (var :: a.1, a.2.1, a.2.2))
          fun a => (∀ t ∈ a.1, c.data.Forms t) ∧ c.data.FormsEnv a.2.1 := fun names' =>
        (ih (henv.extendOne p.name hvar) names').bind fun a ha =>
          .pure ⟨List.forall_mem_cons.2 ⟨hvar, ha.1⟩, ha.2⟩
      split
      · exact hrest names
      · refine (annotated_forms hc DataTypes.formsScope_nil names _).bind fun a ha => ?_
        exact (unify_forms hc hvar ha).bind fun _ _ => hrest a.2

theorem inferDefinition_forms (hc : c.data.Grounded) {env : TypeEnv} (henv : c.data.FormsEnv env)
    (d : Definition) : Upholds (forming c.data) (inferDefinition c env d) c.data.Forms := by
  unfold inferDefinition
  refine (bindParams_forms hc henv [] d.params).bind fun a ha => ?_
  refine (infer_forms hc ha.2 d.body).bind fun t ht => ?_
  have hresult : Upholds (forming c.data) (known (Ty.curry a.1 t)) c.data.Forms :=
    known_forms (Ty.formed_curry_iff.2 ⟨ha.1, ht⟩)
  split
  · refine (annotated_forms hc DataTypes.formsScope_nil a.2.2 _).bind fun u hu => ?_
    exact (blaming_forms (unify_forms hc ht hu)).bind fun _ _ => hresult
  · exact hresult

theorem bindGroup_forms {r : DataTypes} {env : TypeEnv} (henv : r.FormsEnv env)
    (ds : List Definition) :
    Upholds (forming r) (bindGroup env ds)
      fun a => (∀ b ∈ a.1, r.Forms b.2) ∧ r.FormsEnv a.2 := by
  induction ds generalizing env with
  | nil => exact .pure ⟨List.forall_mem_nil _, henv⟩
  | cons d rest ih =>
      refine freshVar_forms.bind fun var hvar => (ih (henv.extendOne d.name hvar)).bind fun a ha => ?_
      exact .pure ⟨List.forall_mem_cons.2 ⟨hvar, ha.1⟩, ha.2⟩

end Inference

/-- An error other than that two instances have different numbers of arguments. -/
def Error.IsAligned (e : Error) : Prop := ∀ f, e.cause = .inr f → f.IsAligned

namespace Inference

variable {c : Context}

/-- Steps of inference, with errors that tell where they happened, where all types are formed as
declared. -/
def reviewing (r : DataTypes) : Regime State Error := ⟨State.Formed r, Error.IsAligned⟩

section

variable {α : Type} {r : DataTypes} {p : α → Prop}

theorem ofFaults_forms {steps : Infer α} (h : Upholds (forming r) steps p) :
    Upholds (reviewing r) (Attempt.ofFaults steps) p :=
  h.adapt rfl fun f hf g hg => by
    cases hg
    exact hf

theorem within_forms {place : String} {steps : Review α} (h : Upholds (reviewing r) steps p) :
    Upholds (reviewing r) (Attempt.within place steps) p :=
  h.adapt rfl fun _ he => he

theorem reset_forms : Upholds (reviewing r) (modify State.reset : Review PUnit) fun _ => True :=
  .modify fun _ hs => State.Formed.reset hs

end

theorem inferGroup_forms (hc : c.data.Grounded) {env : TypeEnv} (henv : c.data.FormsEnv env)
    (ds : List Definition) :
    Upholds (reviewing c.data) (inferGroup c env ds) c.data.FormsEnv := by
  unfold inferGroup
  refine reset_forms.bind fun _ _ => (ofFaults_forms (bindGroup_forms henv ds)).bind fun a ha => ?_
  dsimp only
  refine Upholds.bind (.forM fun b hb => within_forms (ofFaults_forms ?_)) fun _ _ => ?_
  · exact (inferDefinition_forms hc ha.2 b.1).bind fun t ht =>
      blaming_forms (unify_forms hc (ha.1 b hb) ht)
  · refine (ofFaults_forms requireIdempotent_forms).bind fun _ _ => ?_
    refine (Upholds.get fun _ hs => State.Formed.subst hs).bind fun s hs => .pure (henv.extend ?_)
    refine List.forall_mem_map.2 fun b hb => Ty.formed_generalize_iff.2 ?_
    exact Subst.Formed.apply hs (ha.1 b hb)

theorem inferGroups_forms (hc : c.data.Grounded) {env : TypeEnv} (henv : c.data.FormsEnv env)
    (groups : List (List Definition)) :
    Upholds (reviewing c.data) (liftM (inferGroups c env groups) : Review _)
      fun a => c.data.FormsEnv a.1 ∧ Ends (fun _ => True) Error.IsAligned a.2 := by
  induction groups generalizing env with
  | nil => exact .pure ⟨henv, trivial⟩
  | cons group rest ih =>
      intro s hs
      have hgroup := inferGroup_forms hc henv group s hs
      rw [Attempt.outcome_liftState, run_inferGroups_cons]
      revert hgroup
      cases (inferGroup c env group).outcome s with
      | mk result s' =>
          cases result with
          | ok env' => exact fun hgroup => ih hgroup.2 s' hgroup.1
          | error e => exact fun hgroup => ⟨hgroup.1, henv, hgroup.2⟩

theorem bindAxiomVars_forms (hc : c.data.Grounded) {scope : Scope}
    (hscope : c.data.FormsScope scope) {env : TypeEnv} (henv : c.data.FormsEnv env)
    (names : Annotations) (bs : List Binder) :
    Upholds (forming c.data) (bindAxiomVars c scope env names bs) c.data.FormsEnv := by
  induction bs generalizing env names with
  | nil => exact .pure henv
  | cons b rest ih =>
      rw [bindAxiomVars]
      refine freshVar_forms.bind fun var hvar => ?_
      split
      · exact ih (henv.extendOne b.name hvar) names
      · exact (annotated_forms hc hscope names _).bind fun a ha => ih (henv.extendOne b.name ha) a.2

theorem inferAxiom_forms (hc : c.data.Grounded) {env : TypeEnv} (henv : c.data.FormsEnv env)
    (s : Structure) (ax : Axiom) :
    Upholds (reviewing c.data) (inferAxiom c env s ax) c.data.Forms := by
  unfold inferAxiom
  refine reset_forms.bind fun _ _ => within_forms (ofFaults_forms ?_)
  have hparams : Upholds (forming c.data)
      (s.params.mapM fun p => do return (p.name, some (← freshVar)))
      (List.Forall₂ (fun _ b => ∀ t ∈ b.2, c.data.Forms t) s.params) :=
    .mapM fun p _ => freshVar_forms.bind fun t ht => .pure fun u hu => Option.some.inj hu ▸ ht
  refine hparams.bind fun scope hscope => ?_
  have hscope : c.data.FormsScope scope := fun name t hmem =>
    forall_of_forall₂ hscope (name, some t) hmem t rfl
  refine (bindAxiomVars_forms hc hscope henv [] ax.vars).bind fun env' henv' => ?_
  exact (infer_forms (c := { c with implemented := false }) hc henv' ax.body).bind fun t ht =>
    known_forms ht

theorem checkBody_forms (hc : c.data.Grounded) {env : TypeEnv} (henv : c.data.FormsEnv env)
    (i : RegisteredImplementation) (op : Operation) (body : OperationBody) (e : Expr) :
    Upholds (reviewing c.data) (checkBody c env i op body e) fun _ => True := by
  unfold checkBody
  refine reset_forms.bind fun _ _ => ?_
  have hsignature : Upholds (forming c.data) (do
      let a ← annotatedList c [] [] i.decl.args
      let scope : Scope := (i.interface.params.map (·.name)).zip (a.1.map some)
      let u ← annotated c scope [] op.signature
      return u.1.uncurry) fun a => (∀ t ∈ a.1, c.data.Forms t) ∧ c.data.Forms a.2 := by
    refine (annotatedList_forms hc DataTypes.formsScope_nil [] i.decl.args).bind fun a ha => ?_
    have hscope : c.data.FormsScope ((i.interface.params.map (·.name)).zip (a.1.map some)) := by
      intro name t hmem
      obtain ⟨u, hu, heq⟩ := List.mem_map.1 (List.of_mem_zip hmem).2
      exact Option.some.inj heq ▸ ha u hu
    exact (annotated_forms hc hscope [] op.signature).bind fun u hu => .pure hu.uncurry
  refine (ofFaults_forms hsignature).bind fun a ha => ?_
  have hbody : Upholds (reviewing c.data)
      (Attempt.within (i.interface.name ++ i.args ++ ": operation " ++ body.name) <|
        Attempt.ofFaults do
          let t ← infer c (env.extend (body.params.zip a.1)) e
          unify c a.2 t) fun _ => True := by
    have hinner : c.data.FormsEnv (env.extend (body.params.zip a.1)) := henv.extend fun b hb =>
      ha.1 b.2 (List.of_mem_zip hb).2
    exact within_forms (ofFaults_forms ((infer_forms hc hinner e).bind fun t ht =>
      unify_forms hc ha.2 ht))
  refine .ite (fun _ => ?_) fun _ => hbody
  refine .bind (p := fun _ => True) (.throw fun f hf => ?_) fun _ _ => hbody
  cases hf
  trivial

theorem checkImplementation_forms (hc : c.data.Grounded) {env : TypeEnv}
    (henv : c.data.FormsEnv env) (i : RegisteredImplementation) :
    Upholds (reviewing c.data) (checkImplementation c env i) fun _ => True := by
  refine .forM fun body _ => ?_
  split
  · exact checkBody_forms hc henv i _ body _
  · exact .pure trivial

end Inference

end Formulary
