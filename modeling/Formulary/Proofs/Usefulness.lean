import Formulary.Proofs.Variants

/-!
Usefulness means what it says. It is decided on types and on the number of fields that constructors
declare, while values are matched by their form alone; the two agree on values that give each
constructor one argument for each of its fields. A query that is not useful leaves no value that it
matches to go unmatched.
-/

namespace Formulary

/-- The constructor that a value is built with, and its arguments. -/
def Expr.built? : Expr → Option (String × List Expr)
  | .object name => some (name, [])
  | .operation name args => some (name, args)
  | .blank | .const _ | .matching _ _ => none

namespace Pattern

mutual

/-- Whether a pattern matches a value. -/
def accepts : Pattern → Expr → Bool
  | .wildcard, _ | .var _, _ => true
  | .const literal, .const value => value = literal
  | .constructor name args, .object value => value = name && args.isEmpty
  | .constructor name args, .operation value values => value = name && acceptsAll args values
  | _, _ => false

def acceptsAll : List Pattern → List Expr → Bool
  | [], [] => true
  | p :: ps, value :: values => p.accepts value && acceptsAll ps values
  | _, _ => false

end

mutual

theorem isSome_matchInto (bindings : Expr.Bindings) (p : Pattern) (value : Expr) :
    (p.matchInto bindings value).isSome = p.accepts value := by
  match p, value with
  | .wildcard, _ => simp [matchInto, accepts]
  | .var _, _ => simp [matchInto, accepts]
  | .const literal, .const value =>
      rw [matchInto, accepts]
      by_cases h : value = literal <;> simp [h]
  | .constructor name [], .object value =>
      rw [matchInto, accepts]
      by_cases h : value = name <;> simp [h]
  | .constructor name (_ :: _), .object value =>
      rw [accepts, List.isEmpty_cons, Bool.and_false]
      rfl
  | .constructor name args, .operation value values =>
      rw [matchInto, accepts]
      by_cases h : value = name
      · simp [h, isSome_matchListInto bindings args values]
      · simp [h]
  | .const _, .blank | .const _, .object _ | .const _, .operation _ _ | .const _, .matching _ _ => rfl
  | .constructor _ args, .blank | .constructor _ args, .const _ | .constructor _ args, .matching _ _ =>
      cases args <;> rfl

theorem isSome_matchListInto (bindings : Expr.Bindings) (ps : List Pattern) (values : List Expr) :
    (matchListInto bindings ps values).isSome = acceptsAll ps values := by
  match ps, values with
  | [], [] => rfl
  | p :: ps, value :: values =>
      have hhead := isSome_matchInto bindings p value
      rw [matchListInto, acceptsAll, ← hhead]
      cases p.matchInto bindings value with
      | none => rfl
      | some bindings' => simpa using isSome_matchListInto bindings' ps values
  | [], _ :: _ => rfl
  | _ :: _, [] => simp [matchListInto, acceptsAll]

end

theorem accepts_constructor {name : String} {args : List Pattern} {value : Expr} :
    (constructor name args).accepts value = true ↔
      ∃ values, value.built? = some (name, values) ∧ acceptsAll args values = true := by
  cases value with
  | object other => cases args <;> simp [accepts, Expr.built?, acceptsAll]
  | operation other values => simp [accepts, Expr.built?, and_assoc]
  | blank | const | matching => simp [accepts, Expr.built?]

theorem eq_of_accepts_const {literal : String} {value : Expr}
    (h : (Pattern.const literal).accepts value = true) : value = .const literal := by
  cases value with
  | const value => rw [of_decide_eq_true h]
  | blank | object | operation | matching => cases h

theorem acceptsAll_append {ps qs : List Pattern} {values others : List Expr}
    (h : ps.length = values.length) :
    acceptsAll (ps ++ qs) (values ++ others) = (acceptsAll ps values && acceptsAll qs others) := by
  induction ps generalizing values with
  | nil =>
      obtain rfl : values = [] := List.eq_nil_of_length_eq_zero h.symm
      rfl
  | cons p ps ih =>
      cases values with
      | nil => cases h
      | cons value values =>
          rw [List.cons_append, List.cons_append, acceptsAll, acceptsAll, ih (Nat.succ.inj h),
            Bool.and_assoc]

theorem acceptsAll_fit_nil (values : List Expr) : acceptsAll (fit values.length []) values = true := by
  induction values with
  | nil => rfl
  | cons value values ih => simpa [fit, acceptsAll, accepts] using ih

theorem length_eq_of_acceptsAll {ps : List Pattern} {values : List Expr}
    (h : acceptsAll ps values = true) : ps.length = values.length := by
  induction ps generalizing values with
  | nil =>
      cases values with
      | nil => rfl
      | cons => cases h
  | cons p ps ih =>
      cases values with
      | nil => cases h
      | cons value values =>
          rw [acceptsAll, Bool.and_eq_true] at h
          rw [List.length_cons, List.length_cons, ih h.2]

theorem fit_length (ps : List Pattern) : fit ps.length ps = ps := by
  induction ps with
  | nil => rfl
  | cons p ps ih => rw [List.length_cons, fit, ih]

mutual

/-- The constructors in a pattern, each with the number of its arguments. -/
def applications : Pattern → List (String × Nat)
  | .wildcard | .var _ | .const _ => []
  | .constructor name args => (name, args.length) :: applicationsList args

def applicationsList : List Pattern → List (String × Nat)
  | [] => []
  | p :: ps => p.applications ++ applicationsList ps

end

theorem applicationsList_append (ps qs : List Pattern) :
    applicationsList (ps ++ qs) = applicationsList ps ++ applicationsList qs := by
  induction ps with
  | nil => rfl
  | cons p ps ih => rw [List.cons_append, applicationsList, applicationsList, ih, List.append_assoc]

theorem applicationsList_fit_subset (n : Nat) (ps : List Pattern) :
    applicationsList (fit n ps) ⊆ applicationsList ps := by
  induction n generalizing ps with
  | zero => simp [fit, applicationsList]
  | succ n ih =>
      cases ps with
      | nil => simpa [fit, applicationsList, applications] using ih []
      | cons p ps =>
          rw [fit, applicationsList, applicationsList]
          exact List.append_subset.2 ⟨List.subset_append_left .., fun a ha =>
            List.mem_append_right _ (ih ps ha)⟩

theorem applicationsList_specializeRow {name : String} {n : Nat} {row row' : Row}
    (h : specializeRow name n row = some row') : applicationsList row' ⊆ applicationsList row := by
  match row with
  | .constructor other args :: rest =>
      rw [specializeRow] at h
      split at h
      · cases h
        rw [applicationsList_append, applicationsList, applications]
        intro a ha
        rcases List.mem_append.1 ha with ha | ha
        · exact List.mem_append_left _ (List.mem_cons_of_mem _ (applicationsList_fit_subset n args ha))
        · exact List.mem_append_right _ ha
      · cases h
  | .wildcard :: rest | .var _ :: rest =>
      cases h
      rw [applicationsList_append, applicationsList]
      intro a ha
      rcases List.mem_append.1 ha with ha | ha
      · exact absurd (applicationsList_fit_subset n [] ha) List.not_mem_nil
      · exact List.mem_append_right _ ha
  | .const _ :: _ | [] => cases h

theorem applicationsList_defaultRow {row row' : Row} (h : defaultRow row = some row') :
    applicationsList row' ⊆ applicationsList row := by
  match row with
  | .wildcard :: rest | .var _ :: rest =>
      cases h
      exact List.subset_append_right ..
  | .const _ :: _ | .constructor _ _ :: _ | [] => cases h

theorem applicationsList_specializeConst {literal : String} {row row' : Row}
    (h : specializeConst literal row = some row') :
    applicationsList row' ⊆ applicationsList row := by
  match row with
  | .const value :: rest =>
      rw [specializeConst] at h
      split at h
      · cases h
        exact List.subset_append_right ..
      · cases h
  | .wildcard :: rest | .var _ :: rest =>
      cases h
      exact List.subset_append_right ..
  | .constructor _ _ :: _ | [] => cases h

theorem acceptsAll_of_specializeRow {name : String} {row row' : Row} {value : Expr}
    {args values : List Expr} (hbuilt : value.built? = some (name, args))
    (harity : ∀ n, (name, n) ∈ applicationsList row → n = args.length)
    (hrow : specializeRow name args.length row = some row')
    (h : acceptsAll row' (args ++ values) = true) : acceptsAll row (value :: values) = true := by
  match row with
  | .constructor other ps :: rest =>
      rw [specializeRow] at hrow
      split at hrow
      · rename_i hname
        subst hname
        cases hrow
        have hlength : ps.length = args.length :=
          harity ps.length (List.mem_append_left _ (List.mem_cons_self ..))
        rw [← hlength, fit_length, acceptsAll_append hlength, Bool.and_eq_true] at h
        rw [acceptsAll, Bool.and_eq_true]
        exact ⟨accepts_constructor.2 ⟨args, hbuilt, h.1⟩, h.2⟩
      · cases hrow
  | .wildcard :: rest | .var _ :: rest =>
      cases hrow
      rw [acceptsAll_append (length_fit _ _), Bool.and_eq_true] at h
      simpa [acceptsAll, accepts] using h.2
  | .const _ :: _ | [] => cases hrow

theorem acceptsAll_of_defaultRow {row row' : Row} (value : Expr) {values : List Expr}
    (hrow : defaultRow row = some row') (h : acceptsAll row' values = true) :
    acceptsAll row (value :: values) = true := by
  match row with
  | .wildcard :: rest | .var _ :: rest =>
      cases hrow
      simpa [acceptsAll, accepts] using h
  | .const _ :: _ | .constructor _ _ :: _ | [] => cases hrow

theorem acceptsAll_of_specializeConst {literal : String} {row row' : Row} {values : List Expr}
    (hrow : specializeConst literal row = some row') (h : acceptsAll row' values = true) :
    acceptsAll row (.const literal :: values) = true := by
  match row with
  | .const value :: rest =>
      rw [specializeConst] at hrow
      split at hrow
      · rename_i hvalue
        cases hrow
        simp [acceptsAll, accepts, hvalue, h]
      · cases hrow
  | .wildcard :: rest | .var _ :: rest =>
      cases hrow
      simpa [acceptsAll, accepts] using h
  | .constructor _ _ :: _ | [] => cases hrow

end Pattern

/-- The names of a scope, with whether they stand for a type. -/
def Scope.bound (scope : Scope) : List (String × Bool) := scope.map fun b => (b.1, b.2.isSome)

theorem Scope.lookup_bound (scope : Scope) (name : String) :
    scope.bound.lookup name = (scope.lookup name).map Option.isSome := by
  induction scope with
  | nil => rfl
  | cons b scope ih =>
      rcases b with ⟨other, t⟩
      simp only [bound, List.map_cons, List.lookup_cons] at ih ⊢
      cases name == other with
      | true => rfl
      | false => exact ih

namespace DataTypes

variable {r : DataTypes}

theorem applyName_of_length {name : String} {args args' : List Ty} {t : Ty}
    (h : r.applyName name args = .ok t) (hlength : args'.length = args.length) :
    ∃ t', r.applyName name args' = .ok t' := by
  unfold applyName at h ⊢
  split at h
  · split at h
    · rename_i hparams
      exact ⟨_, if_pos (hparams.trans hlength.symm)⟩
    · cases h
  · split at h
    · split at h
      · rename_i hfields
        exact ⟨_, if_pos (hfields.trans hlength.symm)⟩
      · cases h
    · cases h

mutual

theorem resolve_of_bound {scope scope' : Scope} (hbound : scope'.bound = scope.bound) {e : TypeExpr}
    {t : Ty} {s s' : NamedVars} (h : Attempt.Returns (r.resolve scope false e) s t s') :
    ∃ t', Attempt.Returns (r.resolve scope' false e) s t' s' := by
  cases e with
  | blank => cases h
  | named name =>
      have hlookup := Scope.lookup_bound scope' name
      rw [hbound, Scope.lookup_bound] at hlookup
      rw [resolve] at h ⊢
      cases hscope : scope.lookup name with
      | none =>
          rw [hscope] at h hlookup
          rw [Option.map_eq_none_iff.1 hlookup.symm]
          exact ⟨t, h⟩
      | some bound =>
          rw [hscope] at h hlookup
          cases bound with
          | none => cases h
          | some u =>
              cases h
              obtain ⟨bound', hscope', hsome⟩ := Option.map_eq_some_iff.1 hlookup.symm
              obtain ⟨u', rfl⟩ := Option.isSome_iff_exists.1 hsome
              rw [hscope']
              exact ⟨u', rfl⟩
  | app name args =>
      rw [resolve] at h ⊢
      obtain ⟨ts, s₁, hargs, hname⟩ := Attempt.returns_bind_iff.1 h
      rw [Attempt.Returns, Attempt.outcome_liftExcept, Prod.mk.injEq] at hname
      obtain ⟨ts', hlength, hargs'⟩ := resolveList_of_bound hbound hargs
      obtain ⟨t', ht'⟩ := applyName_of_length hname.1 hlength
      refine ⟨t', Attempt.returns_bind_iff.2 ⟨ts', s₁, hargs', ?_⟩⟩
      rw [Attempt.Returns, Attempt.outcome_liftExcept, ht', hname.2]
  | arrow domain codomain =>
      rw [resolve] at h ⊢
      obtain ⟨a, s₁, ha, h⟩ := Attempt.returns_bind_iff.1 h
      obtain ⟨b, s₂, hb, h⟩ := Attempt.returns_bind_iff.1 h
      cases h
      obtain ⟨a', ha'⟩ := resolve_of_bound hbound ha
      obtain ⟨b', hb'⟩ := resolve_of_bound hbound hb
      exact ⟨_, Attempt.returns_bind_iff.2 ⟨a', s₁, ha', Attempt.returns_bind_iff.2 ⟨b', _, hb', rfl⟩⟩⟩
  | nat value =>
      cases h
      exact ⟨_, rfl⟩
  | tag value =>
      cases h
      exact ⟨_, rfl⟩

theorem resolveList_of_bound {scope scope' : Scope} (hbound : scope'.bound = scope.bound)
    {es : List TypeExpr} {ts : List Ty} {s s' : NamedVars}
    (h : Attempt.Returns (r.resolveList scope false es) s ts s') :
    ∃ ts', ts'.length = ts.length ∧
      Attempt.Returns (r.resolveList scope' false es) s ts' s' := by
  match es with
  | [] =>
      cases h
      exact ⟨[], rfl, rfl⟩
  | e :: es =>
      rw [resolveList] at h ⊢
      obtain ⟨t, s₁, ht, h⟩ := Attempt.returns_bind_iff.1 h
      obtain ⟨us, s₂, hus, h⟩ := Attempt.returns_bind_iff.1 h
      cases h
      obtain ⟨t', ht'⟩ := resolve_of_bound hbound ht
      obtain ⟨us', hlength, hus'⟩ := resolveList_of_bound hbound hus
      exact ⟨t' :: us', congrArg (· + 1) hlength, Attempt.returns_bind_iff.2 ⟨t', s₁, ht',
        Attempt.returns_bind_iff.2 ⟨us', _, hus', rfl⟩⟩⟩

end

theorem resolveClosed_of_bound {scope scope' : Scope} (hbound : scope'.bound = scope.bound)
    {e : TypeExpr} {t : Ty} (h : r.resolveClosed scope e = .ok t) :
    ∃ t', r.resolveClosed scope' e = .ok t' := by
  have hrun : Attempt.Returns (r.resolve scope false e) ⟨.startingAt 0, []⟩ t
      (Attempt.outcome (r.resolve scope false e) ⟨.startingAt 0, []⟩).2 := Prod.ext h rfl
  obtain ⟨t', ht'⟩ := resolve_of_bound hbound hrun
  exact ⟨t', congrArg Prod.fst ht'⟩

theorem returns_mapM_of_forall {σ ε α β : Type} {f : α → Attempt σ ε β} {l : List α}
    (h : ∀ a ∈ l, ∀ s, ∃ b s', (f a).Returns s b s') (s : σ) :
    ∃ bs s', Attempt.Returns (l.mapM f) s bs s' := by
  induction l generalizing s with
  | nil => exact ⟨[], s, rfl⟩
  | cons a l ih =>
      obtain ⟨b, s₁, hb⟩ := h a (List.mem_cons_self ..) s
      obtain ⟨bs, s₂, hbs⟩ := ih (fun a' ha' => h a' (List.mem_cons_of_mem _ ha')) s₁
      rw [List.mapM_cons]
      exact ⟨b :: bs, s₂, Attempt.returns_bind_iff.2 ⟨b, s₁, hb,
        Attempt.returns_bind_iff.2 ⟨bs, s₂, hbs, rfl⟩⟩⟩

theorem bound_zip {names : List String} {ts : List Ty} (h : ts.length = names.length) :
    Scope.bound (names.zip (ts.map some)) = names.map (·, true) := by
  induction names generalizing ts with
  | nil => rfl
  | cons name names ih =>
      cases ts with
      | nil => cases h
      | cons t ts =>
          have hrest := ih (Nat.succ.inj h)
          simp only [Scope.bound] at hrest
          simp [Scope.bound, hrest]

theorem returns_metaField {f : Field} {t : Ty} (h : r.resolveClosed [] f.type = .ok t)
    (u : Supply) : ∃ i u', Attempt.Returns (r.metaField f) u i u' := by
  unfold metaField Attempt.Returns
  rw [Attempt.outcome_bind, Attempt.outcome_liftExcept, h]
  show ∃ i u', Attempt.outcome (if isDeclared t = true then _ else _) u = (.ok i, u')
  split
  · exact ⟨_, _, rfl⟩
  · exact ⟨_, _, rfl⟩

/-- A constructor that builds something has instances. -/
theorem returns_instantiate_of_builds {name : String} {ts : List Ty} {t : Ty}
    (h : r.Builds name ts t) (u : Supply) :
    ∃ v u', Attempt.Returns (r.instantiate name) u v u' := by
  unfold instantiate
  cases h with
  | @ofMeta d v _ hvariant howner hfields =>
      simp only [hvariant, howner, if_true]
      have hfield : ∀ f ∈ v.fields, ∀ u, ∃ i u', Attempt.Returns (r.metaField f) u i u' := by
        intro f hf u
        obtain ⟨w, declared, hdeclared, -⟩ := exists_of_forall₂_left hfields hf
        exact returns_metaField hdeclared u
      obtain ⟨fields, u₁, hrun⟩ := returns_mapM_of_forall hfield u
      exact ⟨_, u₁, Attempt.returns_bind_iff.2 ⟨fields, u₁, hrun, rfl⟩⟩
  | @ofData d v params _ hvariant howner hlength hmono hfields =>
      simp only [hvariant, if_neg howner]
      obtain ⟨bs, u₁, hparams⟩ := returns_mapM_of_forall (l := d.params) (f := fun p => do
        return (p, Ty.var (← (liftM Supply.fresh : Fresh Int)))) (fun p _ u => ⟨_, _, rfl⟩) u
      have hnames : bs.map (·.1) = d.params := by
        refine (forall₂_params_iff.1 ((Attempt.returns_mapM hparams).imp fun p b hb => ?_)).1
        obtain ⟨s₁, s₂, hb⟩ := hb
        cases hb
        exact ⟨rfl, rfl⟩
      have hbound : (scopeWith bs).bound = (scopeOf d params).bound := by
        rw [scopeOf, bound_zip hlength, ← hnames, scopeWith, Scope.bound, List.map_map, List.map_map]
        rfl
      have hfield : ∀ f ∈ v.fields, ∀ u, ∃ (i : FieldInstance) (u' : Supply),
          Attempt.Returns (σ := Supply) (ε := Fault) (do
            let t ← (liftM (r.resolveClosed (scopeWith bs) f.type) : Fresh Ty)
            return (⟨f.label, t, t.paramKind⟩ : FieldInstance)) u i u' := by
        intro f hf u
        obtain ⟨w, hw⟩ := exists_of_forall₂_left hfields hf
        obtain ⟨w', hw'⟩ := resolveClosed_of_bound hbound hw
        refine ⟨_, u, Attempt.returns_bind_iff.2 ⟨w', u, ?_, rfl⟩⟩
        rw [Attempt.Returns, Attempt.outcome_liftExcept, hw']
      obtain ⟨fields, u₂, hrun⟩ := returns_mapM_of_forall hfield u₁
      exact ⟨_, u₂, Attempt.returns_bind_iff.2 ⟨bs, u₁, hparams,
        Attempt.returns_bind_iff.2 ⟨fields, u₂, hrun, rfl⟩⟩⟩

theorem exists_variant_of_fieldTypes (hr : r.isWhole = true) {name : String} {t : Ty} {u u' : Supply}
    {fields : List Ty} (hrun : (Pattern.fieldTypes r name t).run u = (fields, u'))
    (hu : u'.Unwrapped) (ht : t.inScope u.next) {θ : Valuation} (hθ : θ.IsMono) {ts : List Ty}
    (hbuilds : r.Builds name ts (t.bind θ)) :
    ∃ v s, Attempt.Returns (r.instantiate name) u v u' ∧ v.inScope u'.next ∧
      Ty.unify t v.result = .ok s ∧ fields = (v.fields.map (·.type)).map s.apply ∧
      ∃ θ' : Valuation, θ.AgreesBelow u.next θ' ∧ θ'.IsMono ∧ v.fields.map (·.type.bind θ') = ts ∧
        t.bind θ' = v.result.bind θ' := by
  obtain ⟨v, u₁, hinstance⟩ := returns_instantiate_of_builds hbuilds u
  have hinstance' : (r.instantiate name).run.run u = (.ok v, u₁) := hinstance
  obtain ⟨hfields, rfl⟩ : (∀ s, Ty.unify t v.result = .ok s →
      fields = (v.fields.map (·.type)).map s.apply) ∧ u₁ = u' := by
    unfold Pattern.fieldTypes at hrun
    rw [StateT.run_bind, hinstance'] at hrun
    dsimp only [bind, pure] at hrun
    cases hunify : Ty.unify t v.result with
    | ok s =>
        rw [hunify] at hrun
        obtain ⟨rfl, rfl⟩ := Prod.mk.inj hrun
        exact ⟨fun s' hs' => Except.ok.inj hs' ▸ rfl, rfl⟩
    | error e =>
        rw [hunify] at hrun
        obtain ⟨rfl, rfl⟩ := Prod.mk.inj hrun
        exact ⟨fun s' hs' => (by cases hs'), rfl⟩
  have hfinds := r.instantiate_finds name
  have hscope := (hfinds.keeps u (hinstance ▸ hu) trivial hr).2
  rw [hinstance] at hscope
  obtain ⟨θ', hagree, hθ', hvalue⟩ := (hfinds.finds u v u₁ hinstance trivial hu hr).complete θ .empty
    (ts, t.bind θ) hθ hbuilds
  obtain ⟨hts, hresult⟩ := Prod.mk.inj hvalue
  -- the instance is one of the type, so that the two unify
  have hsame : t.bind θ' = v.result.bind θ' := by rw [hresult, hagree.bind_eq ht]
  obtain ⟨s, hunify⟩ := Ty.exists_unify_eq_ok ht.1 hscope.1.1 hsame
  exact ⟨v, s, hinstance, hscope, hunify, hfields s hunify, θ', hagree, hθ', hts, hsame⟩

theorem fieldTypes_of_builds (hr : r.isWhole = true) {name : String} {t : Ty} {u u' : Supply}
    {fields : List Ty} (hrun : (Pattern.fieldTypes r name t).run u = (fields, u'))
    (hu : u'.Unwrapped) (ht : t.inScope u.next) {θ : Valuation} (hθ : θ.IsMono) {ts : List Ty}
    (hbuilds : r.Builds name ts (t.bind θ)) :
    Every Ty.inScope fields u'.next ∧
      ∃ θ' : Valuation, θ.AgreesBelow u.next θ' ∧ θ'.IsMono ∧ fields.map (·.bind θ') = ts := by
  obtain ⟨v, s, hinstance, hscope, hunify, rfl, θ', hagree, hθ', hts, hsame⟩ :=
    exists_variant_of_fieldTypes hr hrun hu ht hθ hbuilds
  have hgrows := (r.instantiate_finds name).grows u
  rw [hinstance] at hgrows
  have ht' : t.inScope u'.next := t.inScope.mono (hu.next_le_next hgrows) ht
  have hgeneral := Ty.unify_mostGeneral ht.1 hscope.1.1 hunify
  have hsolves : θ'.Solves s := (Valuation.solves_iff_of_mostGeneral hgeneral ht.1 hscope.1.1).2 hsame
  refine ⟨?_, θ', hagree, hθ', ?_⟩
  · have hs : s.inScope u'.next := hgeneral.within fun x hx => by
      rcases List.mem_append.1 hx with hx | hx
      · exact ht'.2 x hx
      · exact hscope.1.2 x hx
    intro w hw
    obtain ⟨f, hf, rfl⟩ := List.mem_map.1 (List.map_map ▸ hw)
    exact Subst.within_apply hs (hscope.2 f hf)
  · rw [← hts, List.map_map, List.map_map]
    refine List.map_congr_left fun f hf => ?_
    exact hsolves.bind_apply (hscope.2 f hf).1

end DataTypes

/-- The types of literals that stand for dimensions and tags. -/
def Ty.isStatic : Ty → Bool
  | .nat _ | .tag _ | .prim _ => true
  | _ => false

mutual

/-- A value is one of a type. -/
inductive Inhabits (r : DataTypes) : Expr → Ty → Prop
  | scalar {literal : String} : Inhabits r (.const literal) .scalar
  | static {literal : String} {t : Ty} (ht : t.isStatic = true) : Inhabits r (.const literal) t
  | built {value : Expr} {name : String} {args : List Expr} {ts : List Ty} {t : Ty}
      (hbuilt : value.built? = some (name, args)) (hargs : InhabitsAll r args ts)
      (hbuilds : r.Builds name ts t) : Inhabits r value t

inductive InhabitsAll (r : DataTypes) : List Expr → List Ty → Prop
  | nil : InhabitsAll r [] []
  | cons {value : Expr} {values : List Expr} {t : Ty} {ts : List Ty} (hvalue : Inhabits r value t)
      (hvalues : InhabitsAll r values ts) : InhabitsAll r (value :: values) (t :: ts)

end

theorem Inhabits.const_or_built {r : DataTypes} {value : Expr} {t : Ty} (h : Inhabits r value t) :
    (∃ literal, value = .const literal) ∨
      ∃ name args ts, value.built? = some (name, args) ∧ InhabitsAll r args ts ∧
        r.Builds name ts t := by
  cases h with
  | scalar => exact .inl ⟨_, rfl⟩
  | static => exact .inl ⟨_, rfl⟩
  | built hbuilt hargs hbuilds => exact .inr ⟨_, _, _, hbuilt, hargs, hbuilds⟩

theorem InhabitsAll.length_eq {r : DataTypes} {values : List Expr} {ts : List Ty}
    (h : InhabitsAll r values ts) : values.length = ts.length := by
  induction values generalizing ts with
  | nil =>
      cases h
      rfl
  | cons value values ih =>
      cases h with
      | cons _ hvalues => rw [List.length_cons, List.length_cons, ih hvalues]

theorem InhabitsAll.append {r : DataTypes} {values others : List Expr} {ts us : List Ty}
    (h : InhabitsAll r values ts) (h' : InhabitsAll r others us) :
    InhabitsAll r (values ++ others) (ts ++ us) := by
  induction values generalizing ts with
  | nil =>
      cases h
      exact h'
  | cons value values ih =>
      cases h with
      | cons hvalue hvalues => exact .cons hvalue (ih hvalues)

theorem find?_of_nodup {α : Type} {l : List α} {f : α → String} (h : (l.map f).Nodup) {a : α}
    (ha : a ∈ l) : l.find? (fun b => decide (f b = f a)) = some a := by
  induction l with
  | nil => exact absurd ha List.not_mem_nil
  | cons first rest ih =>
      rw [List.map_cons, List.nodup_cons] at h
      rcases List.mem_cons.1 ha with rfl | hrest
      · simp
      · have hne : f first ≠ f a := fun heq => h.1 (heq ▸ List.mem_map_of_mem hrest)
        rw [List.find?_cons_of_neg (by simpa using hne)]
        exact ih h.2 hrest

namespace DataTypes

/-- There is a constructor of a name with a number of fields. -/
def HasArity (r : DataTypes) (a : String × Nat) : Prop :=
  ∃ d v, r.variant? a.1 = some (d, v) ∧ v.fields.length = a.2

/-- No two data types have one name. -/
def Distinct (r : DataTypes) : Prop := r.typeNames.Nodup

variable {r : DataTypes}

theorem mem_of_variant? {name : String} {d : DataType} {v : Variant}
    (h : r.variant? name = some (d, v)) : d ∈ r.types ∧ v ∈ d.variants ∧ v.name = name := by
  obtain ⟨d', hd', hfind⟩ := List.exists_of_findSome?_eq_some h
  obtain ⟨v', hv', heq⟩ := Option.map_eq_some_iff.1 hfind
  cases heq
  exact ⟨hd', List.mem_of_find?_eq_some hv', by simpa using List.find?_some hv'⟩

theorem Distinct.mem_variantsOf (h : r.Distinct) {name : String} {d : DataType} {v : Variant}
    (hvariant : r.variant? name = some (d, v)) : name ∈ r.variantsOf d.name := by
  obtain ⟨hd, hv, rfl⟩ := mem_of_variant? hvariant
  rw [variantsOf, find?, find?_of_nodup h hd]
  exact List.mem_map_of_mem hv

end DataTypes

namespace Pattern

variable {r : DataTypes}

/-- A constructor with as many arguments as it has fields. Literals have the type of scalars and are
not built with its constructor. -/
def Fulfils (r : DataTypes) (a : String × Nat) : Prop := a.1 ≠ "Scalar" ∧ r.HasArity a

/-- Rows of a length, in which every constructor has an argument for each of its fields. -/
def Suits (r : DataTypes) (n : Nat) (rows : List Row) : Prop :=
  ∀ row ∈ rows, row.length = n ∧ ∀ a ∈ applicationsList row, Fulfils r a

theorem Suits.filterMap {n m : Nat} {rows : List Row} {step : Row → Option Row}
    (h : Suits r n rows) (hstep : ∀ row row', step row = some row' →
      (row.length = n → row'.length = m) ∧ applicationsList row' ⊆ applicationsList row) :
    Suits r m (rows.filterMap step) := by
  intro row' hrow'
  obtain ⟨row, hrow, hsome⟩ := List.mem_filterMap.1 hrow'
  obtain ⟨hlength, happlications⟩ := h row hrow
  exact ⟨(hstep row row' hsome).1 hlength, fun a ha =>
    happlications a ((hstep row row' hsome).2 ha)⟩

theorem Suits.specialize {n : Nat} {rows : List Row} (h : Suits r (n + 1) rows) (name : String)
    (k : Nat) : Suits r (k + n) (specialize name k rows) := by
  refine h.filterMap fun row row' hrow => ⟨fun hlength => ?_, applicationsList_specializeRow hrow⟩
  match row with
  | .constructor other args :: rest =>
      rw [specializeRow] at hrow
      split at hrow
      · cases hrow
        rw [List.length_append, length_fit, Nat.succ.inj hlength]
      · cases hrow
  | .wildcard :: rest | .var _ :: rest =>
      cases hrow
      rw [List.length_append, length_fit, Nat.succ.inj hlength]
  | .const _ :: _ | [] => cases hrow

theorem Suits.default {n : Nat} {rows : List Row} (h : Suits r (n + 1) rows) :
    Suits r n (defaultRows rows) := by
  refine h.filterMap fun row row' hrow => ⟨fun hlength => ?_, applicationsList_defaultRow hrow⟩
  match row with
  | .wildcard :: rest | .var _ :: rest =>
      cases hrow
      exact Nat.succ.inj hlength
  | .const _ :: _ | .constructor _ _ :: _ | [] => cases hrow

theorem Suits.const {n : Nat} {rows : List Row} (h : Suits r (n + 1) rows) (literal : String) :
    Suits r n (specializeToConst literal rows) := by
  refine h.filterMap fun row row' hrow => ⟨fun hlength => ?_, applicationsList_specializeConst hrow⟩
  match row with
  | .const value :: rest =>
      rw [specializeConst] at hrow
      split at hrow
      · cases hrow
        exact Nat.succ.inj hlength
      · cases hrow
  | .wildcard :: rest | .var _ :: rest =>
      cases hrow
      exact Nat.succ.inj hlength
  | .constructor _ _ :: _ | [] => cases hrow

theorem length_of_builds {name : String} {d : DataType} {v : Variant} {ts : List Ty} {t : Ty}
    (h : r.Builds name ts t) (hvariant : r.variant? name = some (d, v)) :
    v.fields.length = ts.length := by
  cases h with
  | ofMeta hvariant' _ hfields =>
      cases hvariant.symm.trans hvariant'
      exact hfields.length_eq
  | ofData hvariant' _ _ _ hfields =>
      cases hvariant.symm.trans hvariant'
      exact hfields.length_eq

theorem mem_constructorsOf (hr : r.Distinct) {name : String} {ts : List Ty} {t : Ty} {θ : Valuation}
    (hbuilds : r.Builds name ts (t.bind θ)) (hsome : constructorsOf r t ≠ []) :
    name ∈ constructorsOf r t := by
  cases t with
  | data other constructor args =>
      rw [Ty.bind] at hbuilds
      generalize hbound : Ty.data other constructor (Ty.bindList θ args) = u at hbuilds
      cases hbuilds with
      | ofMeta =>
          obtain ⟨rfl, rfl, -⟩ := Ty.data.inj hbound
          simp [constructorsOf]
      | ofData hvariant howner =>
          obtain ⟨rfl, -, -⟩ := Ty.data.inj hbound
          rw [constructorsOf, if_neg howner]
          exact hr.mem_variantsOf hvariant
  | _ => exact absurd rfl hsome

theorem constructorsOf_of_const {literal : String} {t : Ty} {θ : Valuation}
    (h : Inhabits r (.const literal) (t.bind θ)) :
    constructorsOf r t = [] ∨ constructorsOf r t = ["Scalar"] := by
  cases t with
  | data other constructor args =>
      rw [Ty.bind] at h
      generalize hbound : Ty.data other constructor (Ty.bindList θ args) = u at h
      cases h with
      | scalar =>
          obtain ⟨rfl, rfl, -⟩ := Ty.data.inj hbound
          simp [constructorsOf]
      | static ht =>
          subst hbound
          cases ht
      | built hbuilt => cases hbuilt
  | _ => exact .inl rfl

theorem mem_applicationsList_of_head {name : String} {row : Row}
    (h : headConstructor? row = some name) : ∃ n, (name, n) ∈ applicationsList row := by
  match row with
  | .constructor other args :: rest =>
      cases h
      exact ⟨args.length, List.mem_append_left _ (List.mem_cons_self ..)⟩
  | .wildcard :: _ | .var _ :: _ | .const _ :: _ | [] => cases h

theorem not_covers_of_const {n : Nat} {rows : List Row} {literal : String} {t : Ty} {θ : Valuation}
    (hrows : Suits r n rows)
    (h : Inhabits r (.const literal) (t.bind θ)) : covers rows (constructorsOf r t) = false := by
  rcases constructorsOf_of_const h with hnone | hscalar
  · rw [hnone]
    rfl
  · rw [hscalar]
    by_contra hcovers
    simp only [covers, List.all_cons, Bool.not_eq_false, Bool.and_eq_true, decide_eq_true_eq,
      List.mem_filterMap] at hcovers
    obtain ⟨row, hrow, hhead⟩ := hcovers.2.1
    obtain ⟨n, hn⟩ := mem_applicationsList_of_head hhead
    exact ((hrows row hrow).2 _ hn).1 rfl

theorem run_anyM_eq_false {α : Type} {f : α → StateM Supply Bool} {l : List α} {u u' : Supply}
    (hf : ∀ a, Supply.Grows (f a)) (h : (l.anyM f).run u = (false, u')) {a : α} (ha : a ∈ l) :
    ∃ u₁ u₂, u ≤ u₁ ∧ (f a).run u₁ = (false, u₂) ∧ u₂ ≤ u' := by
  induction l generalizing u with
  | nil => exact absurd ha List.not_mem_nil
  | cons first rest ih =>
      rw [List.anyM, StateT.run_bind] at h
      cases hfirst : (f first).run u with
      | mk result u₁ =>
          have hle : u ≤ u₁ := by simpa [hfirst] using hf first u
          rw [hfirst] at h
          cases result with
          | true => cases h
          | false =>
              have hrest : (rest.anyM f).run u₁ = (false, u') := h
              rcases List.mem_cons.1 ha with rfl | ha
              · refine ⟨u, u₁, le_rfl, hfirst, ?_⟩
                have hgrows := Supply.Grows.anyM (l := rest) (fun a _ => hf a) u₁
                rwa [hrest] at hgrows
              · obtain ⟨u₂, u₃, hle', hrun, hle''⟩ := ih hrest ha
                exact ⟨u₂, u₃, hle.trans hle', hrun, hle''⟩

theorem run_anyM_eq_true {α : Type} {f : α → StateM Supply Bool} {l : List α} {u u' : Supply}
    (hf : ∀ a, Supply.Grows (f a)) (h : (l.anyM f).run u = (true, u')) :
    ∃ a ∈ l, ∃ u₁, u ≤ u₁ ∧ (f a).run u₁ = (true, u') := by
  induction l generalizing u with
  | nil => cases h
  | cons first rest ih =>
      rw [List.anyM, StateT.run_bind] at h
      cases hfirst : (f first).run u with
      | mk result u₁ =>
          have hle : u ≤ u₁ := by simpa [hfirst] using hf first u
          rw [hfirst] at h
          cases result with
          | true =>
              cases h
              exact ⟨first, List.mem_cons_self .., u, le_rfl, hfirst⟩
          | false =>
              obtain ⟨a, ha, u₂, hle', hrun⟩ := ih h
              exact ⟨a, List.mem_cons_of_mem _ ha, u₂, hle.trans hle', hrun⟩

/-- What a query asks for and no row matches, if the query is not useful: there is none. -/
def Answered (r : DataTypes) (rows : List Row) (q : Query) : Prop :=
  ∀ {u u' : Supply}, (useful r rows q).run u = (false, u') → u'.Unwrapped →
    Every Ty.inScope (q.map (·.2)) u.next →
    Suits r q.length rows →
    ∀ {θ : Valuation}, θ.IsMono → ∀ {values : List Expr},
      InhabitsAll r values ((q.map (·.2)).map (·.bind θ)) → acceptsAll (q.map (·.1)) values = true →
      ∃ row ∈ rows, acceptsAll row values = true

theorem exists_row_of_fields (hr : r.isWhole = true) {rows : List Row} {name : String}
    {ps : List Pattern} {t : Ty} {rest : Query} {u u' : Supply}
    (ih : ∀ fields, Answered r (specialize name fields.length rows) (columns ps fields ++ rest))
    (hrun : (do
      let fields ← fieldTypes r name t
      useful r (specialize name fields.length rows) (columns ps fields ++ rest) :
        StateM Supply Bool).run u = (false, u'))
    (hu : u'.Unwrapped) (ht : t.inScope u.next) (hrest : Every Ty.inScope (rest.map (·.2)) u.next)
    (hrows : Suits r (rest.length + 1) rows) {θ : Valuation} (hθ : θ.IsMono)
    {value : Expr} {args values : List Expr} {ts : List Ty}
    (hbuilt : value.built? = some (name, args)) (hargs : InhabitsAll r args ts)
    (hbuilds : r.Builds name ts (t.bind θ)) (hvalues : InhabitsAll r values ((rest.map (·.2)).map (·.bind θ)))
    (haccepts : acceptsAll (fit args.length ps) args = true)
    (hothers : acceptsAll (rest.map (·.1)) values = true) :
    ∃ row ∈ rows, acceptsAll row (value :: values) = true := by
  rw [StateT.run_bind] at hrun
  cases hfields : (fieldTypes r name t).run u with
  | mk fields u₁ =>
      rw [hfields] at hrun
      have hrun' : (useful r (specialize name fields.length rows) (columns ps fields ++ rest)).run u₁ =
          (false, u') := hrun
      have hle : u ≤ u₁ := by simpa [hfields] using fieldTypes_grows r name t u
      have hle' : u₁ ≤ u' := by
        have hgrows := useful_grows r (specialize name fields.length rows) (columns ps fields ++ rest) u₁
        rwa [hrun'] at hgrows
      have hu₁ := hu.of_le hle'
      obtain ⟨hscope, θ', hagree, hθ', rfl⟩ :=
        DataTypes.fieldTypes_of_builds hr hfields hu₁ ht hθ hbuilds
      have hlength : fields.length = args.length := by simpa using hargs.length_eq.symm
      have hcolumns : (columns ps fields).map (·.1) = fit args.length ps := by
        rw [columns, List.map_fst_zip (by rw [length_fit]), hlength]
      have htypes : (columns ps fields).map (·.2) = fields := by
        rw [columns, List.map_snd_zip (by rw [length_fit])]
      have hscope' : Every Ty.inScope ((columns ps fields ++ rest).map (·.2)) u₁.next := by
        rw [List.map_append, htypes]
        intro w hw
        rcases List.mem_append.1 hw with hw | hw
        · exact hscope w hw
        · exact w.inScope.mono (hu₁.next_le_next hle) (hrest w hw)
      have hrows' : Suits r (columns ps fields ++ rest).length (specialize name fields.length rows) := by
        rw [List.length_append, columns, List.length_zip, length_fit, Nat.min_self]
        exact hrows.specialize name fields.length
      have hvalues' : InhabitsAll r (args ++ values)
          (((columns ps fields ++ rest).map (·.2)).map (·.bind θ')) := by
        rw [List.map_append, htypes, List.map_append, ← hagree.map_bind_eq hrest]
        exact hargs.append hvalues
      have haccepts' : acceptsAll ((columns ps fields ++ rest).map (·.1)) (args ++ values) = true := by
        rw [List.map_append, hcolumns, acceptsAll_append (length_fit _ _), haccepts, hothers]
        rfl
      obtain ⟨row', hrow', haccepted⟩ := ih fields hrun' hu hscope' hrows' hθ' hvalues' haccepts'
      obtain ⟨row, hrow, hspecialized⟩ := List.mem_filterMap.1 hrow'
      rw [hlength] at hspecialized
      refine ⟨row, hrow, acceptsAll_of_specializeRow hbuilt (fun n hn => ?_) hspecialized haccepted⟩
      obtain ⟨-, d, v, hvariant, hn⟩ := (hrows row hrow).2 _ hn
      exact hn.symm.trans ((length_of_builds hbuilds hvariant).trans hargs.length_eq.symm)

theorem exists_row_of_default {rows : List Row} {rest : Query} {u u' : Supply}
    (ih : Answered r (defaultRows rows) rest)
    (hrun : (useful r (defaultRows rows) rest).run u = (false, u')) (hu : u'.Unwrapped)
    (hrest : Every Ty.inScope (rest.map (·.2)) u.next)
    (hrows : Suits r (rest.length + 1) rows) {θ : Valuation} (hθ : θ.IsMono)
    (value : Expr) {values : List Expr}
    (hvalues : InhabitsAll r values ((rest.map (·.2)).map (·.bind θ)))
    (hothers : acceptsAll (rest.map (·.1)) values = true) :
    ∃ row ∈ rows, acceptsAll row (value :: values) = true := by
  obtain ⟨row', hrow', haccepted⟩ := ih hrun hu hrest hrows.default hθ hvalues hothers
  obtain ⟨row, hrow, hdefault⟩ := List.mem_filterMap.1 hrow'
  exact ⟨row, hrow, acceptsAll_of_defaultRow value hdefault haccepted⟩

theorem answered_any (hr : r.isWhole = true) (hdistinct : r.Distinct) {rows : List Row} {p : Pattern}
    {t : Ty} {rest : Query}
    (hcovered : covers rows (constructorsOf r t) = true → ∀ name fields,
      Answered r (specialize name (List.length fields) rows) (columns [] fields ++ rest))
    (hdefault : ¬covers rows (constructorsOf r t) = true → Answered r (defaultRows rows) rest)
    (huseful : useful r rows ((p, t) :: rest) =
      if covers rows (constructorsOf r t) then
        (constructorsOf r t).anyM fun name => do
          let fields ← fieldTypes r name t
          useful r (specialize name fields.length rows) (columns [] fields ++ rest)
      else useful r (defaultRows rows) rest) : Answered r rows ((p, t) :: rest) := by
  intro u u' hrun hu hscope hrows θ hθ values hvalues haccepts
  obtain ⟨ht, hrest⟩ := every_cons.1 hscope
  cases hvalues with
  | @cons value values _ _ hvalue hvalues =>
      rw [List.map_cons, acceptsAll, Bool.and_eq_true] at haccepts
      rw [huseful] at hrun
      split at hrun
      · rename_i hcovers
        rcases hvalue.const_or_built with ⟨literal, rfl⟩ | ⟨name, args, ts, hbuilt, hargs, hbuilds⟩
        · exact absurd hcovers (by simp [not_covers_of_const hrows hvalue])
        · have hname : name ∈ constructorsOf r t := by
            refine mem_constructorsOf hdistinct hbuilds fun hnone => ?_
            rw [hnone] at hcovers
            cases hcovers
          obtain ⟨u₁, u₂, hle, hrun, hle'⟩ := run_anyM_eq_false (fun name =>
            (fieldTypes_grows r name t).bind fun _ => useful_grows r _ _) hrun hname
          have hu₂ := hu.of_le hle'
          have hu₁ : u₁.Unwrapped := by
            have hgrows := ((fieldTypes_grows r name t).bind fun fields =>
              useful_grows r (specialize name fields.length rows) (columns [] fields ++ rest)) u₁
            rw [hrun] at hgrows
            exact hu₂.of_le hgrows
          have hnext := hu₁.next_le_next hle
          refine exists_row_of_fields hr (hcovered hcovers name) hrun hu₂ (t.inScope.mono hnext ht)
            ((Every Ty.inScope _).mono hnext hrest) hrows hθ hbuilt hargs hbuilds hvalues ?_ haccepts.2
          exact acceptsAll_fit_nil args
      · rename_i hcovers
        exact exists_row_of_default (hdefault hcovers) hrun hu hrest hrows hθ value hvalues haccepts.2

theorem answered_useful (hr : r.isWhole = true) (hdistinct : r.Distinct) (rows : List Row) (q : Query) :
    Answered r rows q := by
  induction rows, q using useful.induct (r := r) with
  | case1 rows =>
      intro u u' hrun _ _ hrows θ _ values hvalues _
      cases hvalues
      rw [useful] at hrun
      have hsome : rows.isEmpty = false := congrArg Prod.fst hrun
      obtain ⟨row, rest, rfl⟩ := List.exists_cons_of_ne_nil (List.isEmpty_eq_false_iff.1 hsome)
      refine ⟨row, List.mem_cons_self .., ?_⟩
      rw [List.eq_nil_of_length_eq_zero (hrows row (List.mem_cons_self ..)).1]
      rfl
  | case2 rows name args t rest ih =>
      intro u u' hrun hu hscope hrows θ hθ values hvalues haccepts
      obtain ⟨ht, hrest⟩ := every_cons.1 hscope
      rw [useful] at hrun
      cases hvalues with
      | @cons value values _ _ hvalue hvalues =>
          rw [List.map_cons, acceptsAll, Bool.and_eq_true] at haccepts
          obtain ⟨hhead, hothers⟩ := haccepts
          obtain ⟨vs, hbuilt, hargs⟩ := accepts_constructor.1 hhead
          rcases hvalue.const_or_built with ⟨literal, rfl⟩ | ⟨other, vs', ts, hbuilt', hvs, hbuilds⟩
          · cases hbuilt
          · cases hbuilt.symm.trans hbuilt'
            refine exists_row_of_fields hr ih hrun hu ht hrest hrows hθ hbuilt hvs hbuilds hvalues ?_
              hothers
            rw [← length_eq_of_acceptsAll hargs, fit_length]
            exact hargs
  | case3 rows literal t rest ih =>
      intro u u' hrun hu hscope hrows θ hθ values hvalues haccepts
      obtain ⟨-, hrest⟩ := every_cons.1 hscope
      rw [useful] at hrun
      cases hvalues with
      | @cons value values _ _ hvalue hvalues =>
          rw [List.map_cons, acceptsAll, Bool.and_eq_true] at haccepts
          obtain ⟨hhead, hothers⟩ := haccepts
          obtain rfl : value = .const literal := eq_of_accepts_const hhead
          obtain ⟨row', hrow', haccepted⟩ := ih hrun hu hrest (hrows.const literal) hθ hvalues hothers
          obtain ⟨row, hrow, hconst⟩ := List.mem_filterMap.1 hrow'
          exact ⟨row, hrow, acceptsAll_of_specializeConst hconst haccepted⟩
  | case4 rows t rest h ih =>
      refine answered_any hr hdistinct (fun _ => ih) (fun hnot => absurd h hnot) ?_
      rw [useful]
      simp only [dite_eq_ite]
  | case5 rows t rest h ih =>
      refine answered_any hr hdistinct (fun hcovers => absurd hcovers h) (fun _ => ih) ?_
      rw [useful]
      simp only [dite_eq_ite]
  | case6 rows name t rest h ih =>
      refine answered_any hr hdistinct (fun _ => ih) (fun hnot => absurd h hnot) ?_
      rw [useful]
      simp only [dite_eq_ite]
  | case7 rows name t rest h ih =>
      refine answered_any hr hdistinct (fun hcovers => absurd hcovers h) (fun _ => ih) ?_
      rw [useful]
      simp only [dite_eq_ite]

theorem forall_fit_eq_wildcard {ps : List Pattern} (h : ∀ p ∈ ps, p = .wildcard) (n : Nat) :
    ∀ p ∈ fit n ps, p = .wildcard := by
  induction n generalizing ps with
  | zero => exact fun p hp => absurd hp List.not_mem_nil
  | succ n ih =>
      cases ps with
      | nil => exact List.forall_mem_cons.2 ⟨rfl, ih h⟩
      | cons p ps => exact List.forall_mem_cons.2 ⟨h p (List.mem_cons_self ..),
          ih fun q hq => h q (List.mem_cons_of_mem _ hq)⟩

theorem useful_no_rows {q : Query} (h : ∀ column ∈ q, column.1 = .wildcard) (u : Supply) :
    (useful r [] q).run u = (true, u) := by
  induction q with
  | nil =>
      rw [useful]
      rfl
  | cons column q ih =>
      rcases column with ⟨p, t⟩
      obtain rfl : p = .wildcard := h _ (List.mem_cons_self ..)
      have hcovers : ¬covers [] (constructorsOf r t) = true := by
        cases constructorsOf r t <;> simp [covers]
      rw [useful, dif_neg hcovers]
      exact ih fun column hcolumn => h column (List.mem_cons_of_mem _ hcolumn)

theorem exists_accepts_of_scalar {ps : List Pattern} {t : Ty} {arity : Nat} {u u' : Supply}
    (hrun : (useful r (ps.map fun p => [p]) [(.constructor "Scalar" (fit arity []), t)]).run u =
      (false, u')) (hrows : Suits r 1 (ps.map fun p => [p])) (value : Expr) :
    ∃ p ∈ ps, p.accepts value = true := by
  rw [useful, StateT.run_bind] at hrun
  cases hfields : (fieldTypes r "Scalar" t).run u with
  | mk fields u₁ =>
      rw [hfields] at hrun
      have hrun' : (useful r (specialize "Scalar" fields.length (ps.map fun p => [p]))
          (columns (fit arity []) fields ++ [])).run u₁ = (false, u') := hrun
      have hsome : specialize "Scalar" fields.length (ps.map fun p => [p]) ≠ [] := by
        intro hnone
        rw [hnone, useful_no_rows fun column hcolumn => ?_] at hrun'
        · cases hrun'
        · rw [List.append_nil] at hcolumn
          exact forall_fit_eq_wildcard (forall_fit_eq_wildcard (by simp) arity) _ _
            (List.of_mem_zip hcolumn).1
      obtain ⟨row', hrow'⟩ := List.exists_mem_of_ne_nil _ hsome
      obtain ⟨row, hrow, hspecialized⟩ := List.mem_filterMap.1 hrow'
      obtain ⟨p, hp, rfl⟩ := List.mem_map.1 hrow
      refine ⟨p, hp, ?_⟩
      cases p with
      | wildcard | var => rfl
      | const => cases hspecialized
      | constructor name args =>
          rw [specializeRow] at hspecialized
          split at hspecialized
          · rename_i hname
            exact absurd hname ((hrows _ hrow).2 (name, args.length)
              (List.mem_append_left _ (List.mem_cons_self ..))).1
          · cases hspecialized

theorem run_filterAuxM_eq_nil {α : Type} {f : α → StateM Supply Bool} {l acc : List α}
    {u u' : Supply} (hf : ∀ a, Supply.Grows (f a)) (h : (l.filterAuxM f acc).run u = ([], u')) :
    acc = [] ∧ u ≤ u' ∧ ∀ a ∈ l, ∃ u₁ u₂, u ≤ u₁ ∧ (f a).run u₁ = (false, u₂) ∧ u₂ ≤ u' := by
  induction l generalizing acc u with
  | nil =>
      cases h
      exact ⟨rfl, le_rfl, fun a ha => absurd ha List.not_mem_nil⟩
  | cons first rest ih =>
      rw [List.filterAuxM, StateT.run_bind] at h
      cases hfirst : (f first).run u with
      | mk result u₁ =>
          have hle : u ≤ u₁ := by simpa [hfirst] using hf first u
          rw [hfirst] at h
          obtain ⟨hacc, hle', hrest⟩ := ih h
          cases result with
          | true => cases hacc
          | false =>
              refine ⟨hacc, hle.trans hle', List.forall_mem_cons.2 ⟨⟨u, u₁, le_rfl, hfirst, hle'⟩, ?_⟩⟩
              intro a ha
              obtain ⟨u₂, u₃, hbefore, hrun, hbehind⟩ := hrest a ha
              exact ⟨u₂, u₃, hle.trans hbefore, hrun, hbehind⟩

theorem run_filterM_eq_nil {α : Type} {f : α → StateM Supply Bool} {l : List α} {u u' : Supply}
    (hf : ∀ a, Supply.Grows (f a)) (h : (l.filterM f).run u = ([], u')) {a : α} (ha : a ∈ l) :
    ∃ u₁ u₂, u ≤ u₁ ∧ (f a).run u₁ = (false, u₂) ∧ u₂ ≤ u' := by
  rw [List.filterM, StateT.run_bind] at h
  cases hkept : (l.filterAuxM f []).run u with
  | mk kept u₁ =>
      rw [hkept] at h
      have hresult : (kept.reverse, u₁) = ([], u') := h
      rw [Prod.mk.injEq, List.reverse_eq_nil_iff] at hresult
      obtain ⟨rfl, rfl⟩ := hresult
      exact (run_filterAuxM_eq_nil hf hkept).2.2 a ha

theorem exists_accepts_of_missing (hr : r.isWhole = true) (hdistinct : r.Distinct)
    {ps : List Pattern} {t : Ty} {u u' : Supply} (hrun : (missing r ps t).run u = ([], u'))
    (hu : u'.Unwrapped) (ht : t.inScope u.next) (hps : ∀ p ∈ ps, ∀ a ∈ p.applications, Fulfils r a)
    {value : Expr} (hvalue : Inhabits r value t) : ∃ p ∈ ps, p.accepts value = true := by
  have hrows : Suits r 1 (ps.map fun p => [p]) := by
    intro row hrow
    obtain ⟨p, hp, rfl⟩ := List.mem_map.1 hrow
    refine ⟨rfl, fun a ha => hps p hp a ?_⟩
    simpa [applicationsList] using ha
  have hquery : ∀ {p : Pattern} {u₁ u₂ : Supply}, u ≤ u₁ → u₂ ≤ u' →
      (useful r (ps.map fun p => [p]) [(p, t)]).run u₁ = (false, u₂) → p.accepts value = true →
      ∃ p ∈ ps, p.accepts value = true := by
    intro p u₁ u₂ hle hle' hrun haccepts
    have hu₂ := hu.of_le hle'
    have hgrows := useful_grows r (ps.map fun p => [p]) [(p, t)] u₁
    rw [hrun] at hgrows
    have hscope : Every Ty.inScope ([(p, t)].map (·.2)) u₁.next :=
      every_cons.2 ⟨t.inScope.mono ((hu₂.of_le hgrows).next_le_next hle) ht, every_nil _ _⟩
    have hvalues : InhabitsAll r [value] (([(p, t)].map (·.2)).map (·.bind Ty.var)) := by
      rw [List.map_singleton, List.map_singleton, Ty.bind_var]
      exact .cons hvalue .nil
    obtain ⟨row, hrow, haccepted⟩ := answered_useful hr hdistinct _ _ hrun hu₂ hscope hrows
      (θ := .var) (fun _ => rfl) hvalues (by simp [acceptsAll, haccepts])
    obtain ⟨p, hp, rfl⟩ := List.mem_map.1 hrow
    exact ⟨p, hp, by simpa [acceptsAll] using haccepted⟩
  unfold missing at hrun
  dsimp only at hrun
  split at hrun
  · -- the constructors are not known
    rw [StateT.run_bind] at hrun
    cases huseful : (useful r (ps.map fun p => [p]) [(.wildcard, t)]).run u with
    | mk result u₁ =>
        rw [huseful] at hrun
        cases result with
        | true => cases hrun
        | false =>
            obtain ⟨-, rfl⟩ := Prod.mk.inj hrun
            exact hquery le_rfl le_rfl huseful rfl
  · rename_i hsome
    rcases hvalue.const_or_built with ⟨literal, rfl⟩ | ⟨name, args, ts, hbuilt, hargs, hbuilds⟩
    · have hscalar : "Scalar" ∈ constructorsOf r t := by
        have hconst : Inhabits r (.const literal) (t.bind .var) := by rwa [Ty.bind_var]
        rcases constructorsOf_of_const hconst with hnone | hscalar
        · exact absurd hnone hsome
        · simp [hscalar]
      obtain ⟨u₁, u₂, -, huseful, -⟩ := run_filterM_eq_nil (fun _ => useful_grows _ _ _) hrun hscalar
      exact exists_accepts_of_scalar huseful hrows _
    · have hname : name ∈ constructorsOf r t := by
        refine mem_constructorsOf hdistinct (θ := .var) (by rwa [Ty.bind_var]) hsome
      obtain ⟨u₁, u₂, hle, huseful, hle'⟩ := run_filterM_eq_nil (fun _ => useful_grows _ _ _) hrun hname
      refine hquery hle hle' huseful (accepts_constructor.2 ⟨args, hbuilt, ?_⟩)
      obtain ⟨d, v, hvariant⟩ : ∃ d v, r.variant? name = some (d, v) := by
        cases hvariant : r.variant? name with
        | none => exact absurd hvariant hbuilds.ne_none
        | some owner => exact ⟨owner.1, owner.2, rfl⟩
      rw [hvariant]
      dsimp only
      rw [length_of_builds hbuilds hvariant, ← hargs.length_eq]
      exact acceptsAll_fit_nil args

end Pattern

end Formulary
