import Formulary.Proofs.Loading
import Formulary.Proofs.MirroredInference

namespace Formulary

theorem Mirrors.diagonal {σ ε α : Type} {L : Likeness σ ε} {A : α → α → Prop} {m : Attempt σ ε α}
    (h : Mirrors L m m A) {s s' : σ} {a : α} (hs : L.states s s) (hreturns : m.Returns s a s') :
    A a a ∧ L.states s' s' := by
  have hout := h s s hs
  rw [hreturns] at hout
  exact hout

namespace TypeExpr

mutual

theorem meansSame_refl (r : DataTypes) (bound : List String) (e : TypeExpr) :
    e.MeansSame r r bound := by
  cases e with
  | named name => exact fun _ => .refl r name
  | app name args => exact ⟨.refl r name, meansSameList_refl r bound args⟩
  | arrow domain codomain => exact ⟨meansSame_refl r bound domain, meansSame_refl r bound codomain⟩
  | blank | nat | tag => trivial

theorem meansSameList_refl (r : DataTypes) (bound : List String) (es : List TypeExpr) :
    MeansSameList r r bound es := by
  cases es with
  | nil => trivial
  | cons e es => exact ⟨meansSame_refl r bound e, meansSameList_refl r bound es⟩

end

end TypeExpr

theorem Registry.agrees_self {M : Mirror} {r : Registry}
    (hscalar : M.allowed Ty.metaName "Scalar")
    (hinstances : ∀ name d, r.data.find? name = some d → M.allowed name name)
    (hvariants : ∀ name v, r.data.metaVariant? name = some v → M.allowed Ty.metaName name) :
    r.Agrees M r where
  data := ⟨fun _ _ _ _ _ _ => TypeExpr.meansSame_refl .., hscalar, hinstances, hvariants,
    fun _ _ _ => ⟨rfl, fun _ _ => rfl⟩⟩
  operations := fun _ _ _ _ =>
    ⟨fun _ _ _ _ => TypeExpr.meansSame_refl .., TypeExpr.meansSame_refl ..⟩
  structures := fun _ _ h => h
  implementations := fun _ => List.prefix_rfl
  arguments := fun _ _ _ _ _ _ _ _ =>
    ⟨TypeExpr.meansSameList_refl .., TypeExpr.meansSame_refl ..⟩

namespace Inference

variable {M : Mirror} {c : Context}

/-- The types of known names in the second run. -/
def ShowsEnv (M : Mirror) (env env' : TypeEnv) : Prop :=
  ∀ name, Option.Rel M.ShowsScheme (env.get? name) (env'.get? name)

theorem ShowsEnv.extend {env env' : TypeEnv} (h : ShowsEnv M env env') (name : String) {t t' : Ty}
    (ht : M.ShowsTy t t') : ShowsEnv M (env.extend [(name, t)]) (env'.extend [(name, t')]) := by
  intro other
  show Option.Rel M.ShowsScheme ((SortedMap.insert env name t).get? other)
    ((SortedMap.insert env' name t').get? other)
  rw [SortedMap.get?_insert, SortedMap.get?_insert]
  split
  · exact .some (.inl ht)
  · exact h other

section

variable (hagree : c.Agrees M c)

include hagree

theorem annotated_mirrors {names names' : Annotations} (hnames : M.ShowsIds names names')
    (e : TypeExpr) :
    Mirrors (likeness M c c) (annotated c [] names e) (annotated c [] names' e)
      fun a a' => M.ShowsTy a.1 a'.1 ∧ M.ShowsIds a.2 a'.2 := by
  refine fresh_mirrors fun u u' hu => ?_
  have hresolve : Mirrors M.namedLike (c.data.resolve [] true e) (c.data.resolve [] true e)
      M.ShowsTy :=
    DataTypes.resolve_mirrors hagree.registry.data (fun _ _ => id)
      (fun _ => Mirror.freeParam_mirrors) .nil (TypeExpr.meansSame_refl _ _ e)
  have hout := hresolve ⟨u, names⟩ ⟨u', names'⟩ ⟨hu, hnames⟩
  revert hout
  show M.namedLike.Agrees M.ShowsTy ((c.data.resolve [] true e).run.run ⟨u, names⟩)
    ((c.data.resolve [] true e).run.run ⟨u', names'⟩) → M.freshLike.Agrees _
      (((c.data.resolve [] true e).run.run ⟨u, names⟩).1.map
        (·, ((c.data.resolve [] true e).run.run ⟨u, names⟩).2.vars),
        ((c.data.resolve [] true e).run.run ⟨u, names⟩).2.supply)
      (((c.data.resolve [] true e).run.run ⟨u', names'⟩).1.map
        (·, ((c.data.resolve [] true e).run.run ⟨u', names'⟩).2.vars),
        ((c.data.resolve [] true e).run.run ⟨u', names'⟩).2.supply)
  rcases (c.data.resolve [] true e).run.run ⟨u, names⟩ with ⟨f | t, s⟩ <;>
    rcases (c.data.resolve [] true e).run.run ⟨u', names'⟩ with ⟨f' | t', s'⟩
  · exact fun h _ => ⟨(h trivial).1, (h trivial).2.1⟩
  · exact id
  · exact id
  · exact fun h => ⟨⟨h.1, h.2.2⟩, h.2.1⟩

theorem bindParams_mirrors {env env' : TypeEnv} (henv : ShowsEnv M env env')
    {names names' : Annotations} (hnames : M.ShowsIds names names') (params : List Binder) :
    Mirrors (likeness M c c) (bindParams c env names params) (bindParams c env' names' params)
      fun a a' => List.Forall₂ M.ShowsTy a.1 a'.1 ∧ ShowsEnv M a.2.1 a'.2.1 ∧
        M.ShowsIds a.2.2 a'.2.2 := by
  induction params generalizing env env' names names' with
  | nil => exact .pure ⟨.nil, henv, hnames⟩
  | cons p rest ih =>
      rw [bindParams, bindParams]
      refine freshVar_mirrors.bind fun var var' hvar => ?_
      have hnext : ∀ {names names' : Annotations}, M.ShowsIds names names' →
          Mirrors (likeness M c c)
            (do
              let bound ← bindParams c (env.extend [(p.name, var)]) names rest
              return (var :: bound.1, bound.2))
            (do
              let bound ← bindParams c (env'.extend [(p.name, var')]) names' rest
              return (var' :: bound.1, bound.2))
            fun a a' => List.Forall₂ M.ShowsTy a.1 a'.1 ∧ ShowsEnv M a.2.1 a'.2.1 ∧
              M.ShowsIds a.2.2 a'.2.2 := fun hnames =>
        (ih (henv.extend p.name hvar) hnames).bind fun a a' ha =>
          .pure ⟨.cons hvar ha.1, ha.2⟩
      cases p.type with
      | none => exact (Mirrors.pure hnames).bind fun _ _ hnames => hnext hnames
      | some e =>
          exact (annotated_mirrors hagree hnames e).bind fun a a' ha =>
            (unify_mirrors hagree.trace hvar ha.1).bind fun _ _ _ =>
              (Mirrors.pure ha.2).bind fun _ _ hnames => hnext hnames

theorem inferDefinition_mirrors {env env' : TypeEnv} (henv : ShowsEnv M env env') (d : Definition) :
    Mirrors (likeness M c c) (inferDefinition c env d) (inferDefinition c env' d) M.ShowsTy := by
  unfold inferDefinition
  refine (bindParams_mirrors hagree henv rfl d.params).bind fun a a' ha => ?_
  obtain ⟨hparams, hinner, hnames⟩ := ha
  refine (infer_mirrors hagree fun name _ => ⟨hinner name, rfl, rfl⟩).bind fun t t' ht => ?_
  cases d.result with
  | none => exact known_mirrors (.curry hparams ht)
  | some e =>
      refine (annotated_mirrors hagree hnames e).bind fun b b' hb => ?_
      exact (blaming_mirrors _ _ (unify_mirrors hagree.trace ht hb.1)).bind fun _ _ _ =>
        known_mirrors (.curry hparams ht)

end

theorem bindGroup_mirrors {env env' : TypeEnv} (henv : ShowsEnv M env env')
    (group : List Definition) :
    Mirrors (M.inferLike True) (bindGroup env group) (bindGroup env' group)
      fun a a' => List.Forall₂ (fun b b' => b'.1 = b.1 ∧ M.ShowsTy b.2 b'.2) a.1 a'.1 ∧
        ShowsEnv M a.2 a'.2 := by
  induction group generalizing env env' with
  | nil => exact .pure ⟨.nil, henv⟩
  | cons d rest ih =>
      refine freshVar_mirrors.bind fun var var' hvar => ?_
      exact (ih (henv.extend d.name hvar)).bind fun a a' ha => .pure ⟨.cons ⟨rfl, hvar⟩ ha.1, ha.2⟩

end Inference

namespace Ty

variable {allowed : String → String → Prop}

theorem isSchemeOver_generalize {t : Ty} (h : t.IsOver allowed) :
    (t.generalize fun _ => false).IsSchemeOver allowed := by
  have hscheme : (t.generalize fun _ => false).unquantify = (t.freeVars.filter fun _ => true, t) :=
    unquantify_quantify (unquantify_of_isOver h)
  refine ⟨by rw [hscheme]; exact h, List.eq_nil_iff_forall_not_mem.2 fun x hx => ?_⟩
  rw [mem_freeOccurrences_iff_unquantify, hscheme] at hx
  exact hx.2 (by simpa [freeVars, List.mem_eraseDups] using hx.1)

end Ty

/-- The known types are closed schemes over data types that are allowed. -/
def TypeEnv.IsOver (allowed : String → String → Prop) (env : TypeEnv) : Prop :=
  ∀ name t, env.get? name = some t → t.IsSchemeOver allowed

/-- A run beside itself. -/
def Mirror.self (allowed : String → String → Prop) : Mirror := ⟨Equiv.refl Int, allowed, 0⟩

theorem Mirror.showsSupply_self {allowed : String → String → Prop} (u : Supply) :
    (Mirror.self allowed).ShowsSupply u u :=
  ⟨fun _ => rfl, (Int.add_zero _).symm⟩

theorem Mirrors.adapt {σ ε ε' α β : Type} {K : Likeness σ ε} {L : Likeness σ ε'}
    {A : α → β → Prop} {m : Attempt σ ε α} {m' : Attempt σ ε β} (h : Mirrors K m m' A) {f : ε → ε'}
    (hstates : L.states = K.states) (hfaithful : L.faithful ↔ K.faithful)
    (hfaults : ∀ e e', K.faults e e' → L.faults (f e) (f e')) :
    Mirrors L (ExceptT.adapt f m : Attempt σ ε' α) (ExceptT.adapt f m' : Attempt σ ε' β) A := by
  intro s s' hs
  have hout := h s s' (hstates ▸ hs)
  rw [Attempt.outcome_adapt, Attempt.outcome_adapt]
  revert hout
  rcases m.outcome s with ⟨e | a, s₁⟩ <;> rcases m'.outcome s' with ⟨e' | b, s₁'⟩
  · exact fun h hL => ⟨hfaults e e' (h (hfaithful.1 hL)).1, hstates ▸ (h (hfaithful.1 hL)).2⟩
  · exact fun h => mt hfaithful.1 h
  · exact id
  · exact fun h => ⟨h.1, hstates ▸ h.2⟩

namespace Inference

variable {allowed : String → String → Prop} {c : Context}

theorem showsEnv_of_isOver {M : Mirror} {env : TypeEnv} (h : env.IsOver M.allowed) :
    ShowsEnv M env env := by
  intro name
  cases hget : env.get? name with
  | none => exact .none
  | some t => exact .some (.inr ⟨rfl, h name t hget⟩)

/-- Steps of inference whose errors tell where they happened. -/
def reviewLike (M : Mirror) : Likeness State Error := ⟨M.ShowsState, fun _ _ => True, True⟩

/-- Two runs that hand out their variables in step. -/
def suppliedLike (M : Mirror) : Likeness State Error :=
  ⟨fun s s' => M.ShowsSupply s.supply s'.supply, fun _ _ => True, True⟩

theorem reset_mirrors {α β : Type} {M : Mirror} {A : α → β → Prop} {m : Unit → Review α}
    {m' : Unit → Review β} (h : Mirrors (reviewLike M) (m ()) (m' ()) A) :
    Mirrors (suppliedLike M) (modify State.reset >>= m) (modify State.reset >>= m') A := by
  intro s s' hs
  have hout := h s.reset s'.reset ⟨hs.resetCount, Mirror.showsSubst_empty, rfl, rfl⟩
  show (suppliedLike M).Agrees A ((m ()).outcome s.reset) ((m' ()).outcome s'.reset)
  revert hout
  rcases (m ()).outcome s.reset with ⟨e | a, s₁⟩ <;>
    rcases (m' ()).outcome s'.reset with ⟨e' | b, s₁'⟩
  · exact fun h _ => ⟨trivial, (h trivial).2.supply⟩
  · exact id
  · exact id
  · exact fun h => ⟨h.1, h.2.supply⟩

theorem ofFaults_mirrors {α : Type} {M : Mirror} {A : α → α → Prop} {same : Prop} (hsame : same)
    {m m' : Infer α} (h : Mirrors (M.inferLike same) m m' A) :
    Mirrors (reviewLike M) (Attempt.ofFaults m) (Attempt.ofFaults m') A :=
  h.adapt rfl ⟨fun _ => hsame, fun _ => trivial⟩ fun _ _ _ => trivial

theorem inferGroup_mirrors (hagree : c.Agrees (.self allowed) c) {env : TypeEnv}
    (henv : env.IsOver allowed) (group : List Definition) :
    Mirrors (suppliedLike (.self allowed)) (inferGroup c env group) (inferGroup c env group)
      fun a b => b = a ∧ a.IsOver allowed := by
  refine reset_mirrors ?_
  refine (ofFaults_mirrors trivial (bindGroup_mirrors (showsEnv_of_isOver henv) group)).bind
    fun bound bound' hbound => ?_
  obtain ⟨bound, inner⟩ := bound
  obtain ⟨bound', inner'⟩ := bound'
  obtain ⟨hvars, hinner⟩ := hbound
  have hsame : bound = bound' := by
    rw [← List.forall₂_eq_eq_eq]
    exact hvars.imp fun b b' hb => Prod.ext hb.1.symm ((Ty.rename_refl b.2).symm.trans hb.2.1.symm)
  subst hsame
  refine Mirrors.bind (A := fun _ _ => True) (.forM fun b hb => ?_) fun _ _ _ => ?_
  · obtain ⟨-, hvar⟩ := List.forall₂_same.1 hvars b hb
    refine Mirrors.adapt (K := reviewLike (.self allowed)) ?_ rfl Iff.rfl fun _ _ _ => trivial
    refine ofFaults_mirrors rfl ((inferDefinition_mirrors hagree hinner b.1).bind
      fun t t' ht => blaming_mirrors _ _ (unify_mirrors rfl hvar ht))
  · refine (ofFaults_mirrors trivial requireIdempotent_mirrors).bind fun _ _ _ => ?_
    refine Mirrors.get.bind fun st st' hst => .pure ⟨?_, ?_⟩
    · refine congrArg _ (List.map_congr_left fun b hb => ?_)
      obtain ⟨d, var⟩ := b
      have happly : st'.subst.apply var = st.subst.apply var :=
        (hst.subst.apply (List.forall₂_same.1 hvars (d, var) hb).2).1.trans (Ty.rename_refl _)
      dsimp only
      rw [happly]
    · intro name t ht
      rcases get?_extend ht with ht | ht
      · exact henv name t ht
      · obtain ⟨b, hb, heq⟩ := List.mem_map.1 ht
        cases heq
        exact Ty.isSchemeOver_generalize
          (hst.subst.apply (List.forall₂_same.1 hvars b hb).2).2

theorem inferGroup_isOver (hagree : c.Agrees (.self allowed) c) {env env' : TypeEnv}
    (henv : env.IsOver allowed) {group : List Definition} {s s' : State}
    (h : (inferGroup c env group).Returns s env' s') : env'.IsOver allowed :=
  ((inferGroup_mirrors hagree henv group).diagonal (Mirror.showsSupply_self _) h).1.2

theorem inferGroups_isOver (hagree : c.Agrees (.self allowed) c) {env env' : TypeEnv}
    (henv : env.IsOver allowed) {groups : List (List Definition)} {s : State}
    (h : ((inferGroups c env groups).run s).1 = (env', .ok ())) : env'.IsOver allowed := by
  induction groups generalizing env s with
  | nil =>
      cases h
      exact henv
  | cons group rest ih =>
      rw [run_inferGroups_cons] at h
      cases hgroup : (inferGroup c env group).outcome s with
      | mk r s₁ =>
          rw [hgroup] at h
          cases r with
          | ok inner => exact ih (inferGroup_isOver hagree henv hgroup) h
          | error e => cases h

end Inference

namespace DataTypes

/-- The data types, with constructors, of types over some declarations. -/
def Provides (r : DataTypes) (name constructor : String) : Prop :=
  name = constructor ∧ (r.find? name).isSome = true ∨
    name = Ty.metaName ∧ (constructor = "Scalar" ∨ (r.metaVariant? constructor).isSome = true)

variable {r r' : DataTypes} {more : List DataType}

theorem find?_of_append (h : r'.types = r.types ++ more) (name : String) :
    r'.find? name = (r.find? name).or (DataTypes.find? ⟨more⟩ name) := by
  rw [find?, h, List.find?_append]
  rfl

theorem variant?_of_append (h : r'.types = r.types ++ more) (name : String) :
    r'.variant? name = (r.variant? name).or (DataTypes.variant? ⟨more⟩ name) := by
  rw [variant?, h, List.findSome?_append]
  rfl

theorem Provides.append (h : r'.types = r.types ++ more) {name constructor : String}
    (hprovides : r.Provides name constructor) : r'.Provides name constructor := by
  rcases hprovides with ⟨heq, hfind⟩ | ⟨hname, hscalar | hmeta⟩
  · refine .inl ⟨heq, ?_⟩
    rw [find?_of_append h, Option.isSome_or, hfind, Bool.true_or]
  · exact .inr ⟨hname, .inl hscalar⟩
  · refine .inr ⟨hname, .inr ?_⟩
    unfold metaVariant? at hmeta ⊢
    rw [variant?_of_append h]
    cases hvariant : r.variant? constructor with
    | none =>
        rw [hvariant] at hmeta
        cases hmeta
    | some owner =>
        rw [hvariant] at hmeta
        exact hmeta

end DataTypes

theorem Registry.agrees_provides (ids : Equiv.Perm Int) (ahead : Int) (r : Registry) :
    r.Agrees ⟨ids, r.data.Provides, ahead⟩ r :=
  agrees_self (.inr ⟨rfl, .inl rfl⟩) (fun _ d h => .inl ⟨rfl, by rw [h]; rfl⟩)
    fun _ v h => .inr ⟨rfl, .inr (by rw [h]; rfl)⟩

namespace Checker

/-- The types of the definitions of a checker are closed schemes over what it declares. -/
def Schematic (c : Checker) : Prop := c.env.IsOver c.registry.data.Provides

theorem Gains.schematic {c c' : Checker} {ds : List Declaration} (h : c.Gains c' ds)
    (hc : c.Schematic) : c'.Schematic := by
  intro name t ht
  rw [h.env] at ht
  obtain ⟨hbody, hclosed⟩ := hc name t ht
  have htypes := (Registry.gains_of_registerAll h.registry).types
  exact ⟨hbody.mono fun _ _ => DataTypes.Provides.append htypes, hclosed⟩

theorem Schematic.isClosed {c : Checker} (h : c.Schematic)
    (hnamed : c.registry.data.find? "" = none) : c.env.IsClosed := by
  intro name t ht
  obtain ⟨hbody, hclosed⟩ := h name t ht
  have hblank : ¬c.registry.data.Provides "" "" := by
    rintro (⟨-, hfind⟩ | ⟨hname, -⟩)
    · rw [hnamed] at hfind
      cases hfind
    · exact absurd hname (by decide)
  rw [Ty.isClosedScheme, hbody.isMono hblank, hclosed]
  rfl

/-- Steps that keep the types of definitions closed schemes over what is declared. -/
def KeepsSchemes {α : Type} (steps : Run α) : Prop :=
  ∀ c : Checker, c.Schematic → (steps.outcome c).2.Schematic

theorem Registers.keepsSchemes {α : Type} {steps : Run α} {ds : List Declaration}
    (h : Registers steps ds) : KeepsSchemes steps := by
  intro c hc
  cases hrun : steps.outcome c with
  | mk r c' =>
      cases r with
      | ok a => exact (h.ofOk hrun).schematic hc
      | error e =>
          obtain ⟨ds', -, hgains⟩ := h.ofError hrun
          exact hgains.schematic hc

theorem KeepsSchemes.bind {α β : Type} {steps : Run α} {f : α → Run β} (h : KeepsSchemes steps)
    (hf : ∀ a, KeepsSchemes (f a)) : KeepsSchemes (steps >>= f) := by
  intro c hc
  have hsteps := h c hc
  rw [Attempt.outcome_bind]
  cases hrun : steps.outcome c with
  | mk r c₁ =>
      rw [hrun] at hsteps
      cases r with
      | ok a => exact hf a c₁ hsteps
      | error e => exact hsteps

theorem returns_inferDefinitions {defs : List Definition} {c c' : Checker} {env : TypeEnv}
    (h : (inferDefinitions defs).Returns c env c') :
    ((Inference.inferDefinitions c.context c.env defs).run c.inference).1 = (env, .ok ()) ∧
      c.Gains c' [] := by
  refine ⟨?_, (inferDefinitions_registers defs).ofOk h⟩
  obtain ⟨_, _, hget, h⟩ := Attempt.returns_bind_iff.1 h
  cases hget
  obtain ⟨⟨env', outcome⟩, c₁, hinfer, h⟩ := Attempt.returns_bind_iff.1 h
  have hrun : ((Inference.inferDefinitions c.context c.env defs).run c.inference).1 =
      (env', outcome) := Except.ok.inj (congrArg Prod.fst hinfer)
  cases outcome with
  | ok =>
      cases h
      exact hrun
  | error e => cases h

theorem load_keepsSchemes (decls : List Declaration) : KeepsSchemes (load decls) := by
  intro c hc
  obtain ⟨e, c', ds, hload, -, hgains⟩ | ⟨c₁, env, c₂, inference, hgains, hinfer, hload⟩ :=
    load_outcome decls c
  · rw [hload]
    exact hgains.schematic hc
  · rw [hload]
    obtain ⟨hrun, hgains'⟩ := returns_inferDefinitions hinfer
    have hagree : c₁.context.Agrees (.self c₁.registry.data.Provides) c₁.context :=
      ⟨Registry.agrees_provides _ _ _, rfl, rfl, rfl, rfl⟩
    have henv := Inference.inferGroups_isOver hagree (hgains.schematic hc) hrun
    have hregistry : c₁.registry = c₂.registry := Except.ok.inj hgains'.registry
    show TypeEnv.IsOver c₂.registry.data.Provides env
    rw [← hregistry]
    exact henv

theorem serve_keepsSchemes (r : Request) : KeepsSchemes r.serve := by
  cases r with
  | load name source =>
      show KeepsSchemes (Attempt.within name _)
      intro c hc
      rw [Attempt.within, Attempt.outcome_adapt]
      split
      · exact load_keepsSchemes _ c hc
      · exact hc
  | check source =>
      exact KeepsSchemes.bind
        ((parseExpr_registers source).bind fun e => check_registers e).keepsSchemes
        fun _ => (Registers.pure ()).keepsSchemes
  | evaluate source =>
      exact KeepsSchemes.bind
        ((parseExpr_registers source).bind fun e => evaluate_registers e).keepsSchemes
        fun _ => (Registers.pure ()).keepsSchemes

theorem create_schematic (options : Options) : (create options).Schematic := by
  have hempty : (empty options).Schematic := fun name t ht => by simp [empty] at ht
  have hlibrary : KeepsSchemes loadLibrary :=
    (load_keepsSchemes StandardLibrary.dataTypes).bind fun _ =>
      load_keepsSchemes StandardLibrary.structures
  have hloaded := hlibrary (empty options) hempty
  rw [create_eq]
  generalize loadLibrary.outcome (empty options) = loaded at hloaded ⊢
  split
  · exact hempty
  · exact hloaded

theorem Reachable.schematic {c : Checker} (h : c.Reachable) : c.Schematic := by
  obtain ⟨options, rs, rfl⟩ := h
  have hstart := create_schematic options
  generalize create options = c at hstart
  induction rs generalizing c with
  | nil => exact hstart
  | cons r rest ih => exact ih _ (serve_keepsSchemes r c hstart)

end Checker

end Formulary
