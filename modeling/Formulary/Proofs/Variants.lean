import Formulary.Proofs.Typing

namespace Formulary

/-- What a scope binds, under a valuation. -/
def Scope.bind (scope : Scope) (θ : Valuation) : Scope :=
  scope.map fun b => (b.1, b.2.map (·.bind θ))

theorem Scope.lookup_bind (scope : Scope) (θ : Valuation) (name : String) :
    (scope.bind θ).lookup name = (scope.lookup name).map fun t => t.map (·.bind θ) := by
  induction scope with
  | nil => rfl
  | cons b scope ih =>
      rcases b with ⟨other, t⟩
      simp only [bind, List.map_cons, List.lookup_cons] at ih ⊢
      cases name == other with
      | true => rfl
      | false => exact ih

namespace DataTypes

variable {r : DataTypes} {scope : Scope} {θ : Valuation} {P : Upward}

theorem bind_of_lookupName? {name : String} {t : Ty} (h : r.lookupName? name = some t) :
    t.bind θ = t := by
  have hclosed : t.Within fun _ => False := within_of_lookupName? h
  exact Ty.bind_eq_self fun x hx => (hclosed.2 x hx).elim

theorem applyName_bind {name : String} {args : List Ty} {t : Ty}
    (h : r.applyName name args = .ok t) :
    r.applyName name (args.map (·.bind θ)) = .ok (t.bind θ) := by
  unfold applyName at h ⊢
  split at h
  · split at h
    · rename_i hlength
      cases h
      rw [List.length_map, if_pos hlength, Ty.instanceOf, Ty.instanceOf, Ty.bind,
        Ty.bindList_eq_map]
    · cases h
  · split at h
    · split at h
      · rename_i hlength
        cases h
        rw [List.length_map, if_pos hlength, Ty.variant, Ty.variant, Ty.bind, Ty.bindList_eq_map]
      · cases h
    · cases h

mutual

theorem resolve_bind {e : TypeExpr} {t : Ty} {s s' : NamedVars}
    (h : Attempt.Returns (r.resolve scope false e) s t s') :
    Attempt.Returns (r.resolve (scope.bind θ) false e) s (t.bind θ) s' := by
  cases e with
  | blank => cases h
  | named name =>
      rw [resolve] at h ⊢
      rw [Scope.lookup_bind]
      cases hlookup : scope.lookup name with
      | some bound =>
          rw [hlookup] at h
          cases bound with
          | some u =>
              cases h
              rfl
          | none => cases h
      | none =>
          rw [hlookup] at h
          cases hname : r.lookupName? name with
          | some u =>
              simp only [hname] at h ⊢
              cases h
              rw [bind_of_lookupName? hname]
              rfl
          | none =>
              simp only [hname] at h
              cases h
  | app name args =>
      rw [resolve] at h ⊢
      obtain ⟨ts, s₁, hargs, hname⟩ := Attempt.returns_bind_iff.1 h
      refine Attempt.returns_bind_iff.2 ⟨_, s₁, resolveList_bind hargs, ?_⟩
      rw [Attempt.Returns, Attempt.outcome_liftExcept, Prod.mk.injEq] at hname ⊢
      exact ⟨applyName_bind hname.1, hname.2⟩
  | arrow domain codomain =>
      rw [resolve] at h ⊢
      obtain ⟨a, s₁, ha, h⟩ := Attempt.returns_bind_iff.1 h
      obtain ⟨b, s₂, hb, h⟩ := Attempt.returns_bind_iff.1 h
      cases h
      exact Attempt.returns_bind_iff.2 ⟨_, s₁, resolve_bind ha,
        Attempt.returns_bind_iff.2 ⟨_, _, resolve_bind hb, rfl⟩⟩
  | nat value =>
      cases h
      rfl
  | tag value =>
      cases h
      rfl

theorem resolveList_bind {es : List TypeExpr} {ts : List Ty} {s s' : NamedVars}
    (h : Attempt.Returns (r.resolveList scope false es) s ts s') :
    Attempt.Returns (r.resolveList (scope.bind θ) false es) s (ts.map (·.bind θ)) s' := by
  match es with
  | [] =>
      cases h
      rfl
  | e :: es =>
      rw [resolveList] at h ⊢
      obtain ⟨t, s₁, ht, h⟩ := Attempt.returns_bind_iff.1 h
      obtain ⟨us, s₂, hus, h⟩ := Attempt.returns_bind_iff.1 h
      cases h
      exact Attempt.returns_bind_iff.2 ⟨_, s₁, resolve_bind ht,
        Attempt.returns_bind_iff.2 ⟨_, _, resolveList_bind hus, rfl⟩⟩

end

theorem resolveClosed_bind {e : TypeExpr} {t : Ty} (h : r.resolveClosed scope e = .ok t) :
    r.resolveClosed (scope.bind θ) e = .ok (t.bind θ) := by
  have hrun : Attempt.Returns (r.resolve scope false e) ⟨.startingAt 0, []⟩ t
      (Attempt.outcome (r.resolve scope false e) ⟨.startingAt 0, []⟩).2 := Prod.ext h rfl
  exact congrArg Prod.fst (resolve_bind (θ := θ) hrun)

theorem metaField_finds (r : DataTypes) (f : Field) :
    Finds freshView (Known (f.type.isWhole = true)) (r.metaField f) (fun i => i.type.inScope)
      (fun i θ => i.type.bind θ) fun _ _ t => r.FieldOfMeta f t := by
  have hdeclared : Finds freshView (Known (f.type.isWhole = true))
      (liftM (r.resolveClosed [] f.type) : Fresh Ty) (fun t => Known (∀ G, t.Within G))
      (fun t _ => t) fun _ _ t => r.resolveClosed [] f.type = .ok t := by
    refine Finds.ofExcept (fun n h => ?_) fun t ht θ D u => ?_
    · have hends : ∀ G, Ends (fun t => t.Within G) Fault.IsOrdinary (r.resolveClosed [] f.type) :=
        fun G => r.resolveClosed_ends h fun _ hb => absurd hb List.not_mem_nil
      cases hresult : r.resolveClosed [] f.type with
      | ok t => exact fun G => by simpa [hresult, Ends] using hends G
      | error e =>
          have hordinary := hends fun _ => True
          rw [hresult] at hordinary
          exact hordinary
    · rw [ht, Except.ok.injEq, eq_comm]
  refine hdeclared.bind (K := fun _ declared _ t =>
    if isDeclared declared then t = declared else t.isMono = true) (fun declared => ?_)
    fun _ _ _ _ _ => rfl
  refine Finds.iteOf (fun hown => ?_) fun hown => ?_
  · have hown : isDeclared declared = true := hown
    refine Finds.pure (fun n h => h.2 _) fun s _ hpre θ D t _ => ?_
    rw [if_pos hown, Ty.bind_eq_self fun x hx => ((hpre.2 fun _ => False).2 x hx).elim]
  · have hown : ¬isDeclared declared = true := hown
    refine (fresh_finds.bind (K := fun _ u _ t => t = u) (fun id => ?_) fun _ _ _ _ _ => rfl).congr
      fun s _ _ θ D t _ => ?_
    · exact Finds.pure (fun n h => Ty.within_var h.2) fun s _ _ θ D t _ => Iff.rfl
    · simp [hown]

theorem params_finds (params : List String) :
    Finds freshView P (params.mapM fun p => do
        return (p, Ty.var (← (liftM Supply.fresh : Fresh Int))))
      (Every fun b => b.2.inScope) (fun bs θ => bs.map fun b => (b.1, b.2.bind θ))
      fun _ _ (bs : List (String × Ty)) =>
        List.Forall₂ (fun p b => b.1 = p ∧ b.2.isMono = true) params bs := by
  refine Finds.mapM (J := fun _ p _ (b : String × Ty) => b.1 = p ∧ b.2.isMono = true)
    (fun p _ => ?_) (fun n b hb θ θ' hagree => ?_) fun _ _ _ _ _ => rfl
  · refine (fresh_finds.bind (K := fun _ u _ b => b = (p, u)) (fun id => ?_)
      fun _ _ _ _ _ => rfl).congr fun s _ _ θ D b _ => ?_
    · exact Finds.pure (fun n h => Ty.within_var h.2) fun s _ _ θ D b _ => Iff.rfl
    · rcases b with ⟨q, t⟩
      simp [and_comm]
  · rw [hagree.bind_eq hb]

/-- The scope in which parameters stand for types. -/
def scopeWith (params : List (String × Ty)) : Scope := params.map fun b => (b.1, some b.2)

theorem bind_scopeWith (params : List (String × Ty)) (θ : Valuation) :
    (scopeWith params).bind θ = scopeWith (params.map fun b => (b.1, b.2.bind θ)) := by
  simp [scopeWith, Scope.bind, List.map_map, Function.comp_def]

theorem field_finds (r : DataTypes) (params : List (String × Ty)) (f : Field) :
    Finds freshView (Every (fun b => b.2.inScope) params ⊓ Known (f.type.isWhole = true))
      (liftM (r.resolveClosed (scopeWith params) f.type) : Fresh Ty) Ty.inScope
      (fun t θ => t.bind θ) fun θ _ t =>
        r.resolveClosed (scopeWith (params.map fun b => (b.1, b.2.bind θ))) f.type = .ok t := by
  refine Finds.ofExcept (fun n h => ?_) fun t ht θ D u => ?_
  · refine r.resolveClosed_ends h.2 fun b hb t ht => ?_
    obtain ⟨b', hb', rfl⟩ := List.mem_map.1 hb
    cases ht
    exact h.1 b' hb'
  · rw [← bind_scopeWith, resolveClosed_bind ht, Except.ok.injEq, eq_comm]

theorem fields_finds (r : DataTypes) (params : List (String × Ty)) (fields : List Field) :
    Finds freshView (Every (fun b => b.2.inScope) params ⊓
        Known (∀ f ∈ fields, f.type.isWhole = true))
      (fields.mapM fun f => do
        let t ← (liftM (r.resolveClosed (scopeWith params) f.type) : Fresh Ty)
        return (⟨f.label, t, t.paramKind⟩ : FieldInstance))
      (Every fun i => i.type.inScope) (fun is θ => is.map (·.type.bind θ))
      fun θ _ ts => List.Forall₂ (fun (f : Field) t =>
        r.resolveClosed (scopeWith (params.map fun b => (b.1, b.2.bind θ))) f.type = .ok t)
        fields ts := by
  refine Finds.mapM (J := fun θ (f : Field) _ t =>
    r.resolveClosed (scopeWith (params.map fun b => (b.1, b.2.bind θ))) f.type = .ok t)
    (fun f hf => ?_) (fun n i hi θ θ' hagree => hagree.bind_eq hi) fun n h θ θ' hagree => ?_
  · refine Finds.congr ((r.field_finds params f).followedBy (K := fun _ u _ t => t = u)
      (fun n h => ⟨h.1, h.2 f hf⟩) (fun t => ?_) fun _ _ _ _ _ => rfl) fun s _ _ θ D t _ => ?_
    · exact Finds.pure (fun n h => h.2) fun s _ _ θ D t _ => Iff.rfl
    · simp
  · have hsame : (params.map fun b => (b.1, b.2.bind θ)) =
        params.map fun b => (b.1, b.2.bind θ') :=
      List.map_congr_left fun b hb => by rw [hagree.bind_eq (h.1 b hb)]
    rw [hsame]

theorem scopeOf_eq {d : DataType} {bs : List (String × Ty)} (h : bs.map (·.1) = d.params) :
    scopeOf d (bs.map (·.2)) = scopeWith bs := by
  rw [scopeOf, scopeWith, ← h, List.map_map, List.zip_map']
  rfl

theorem forall₂_params_iff {params : List String} {bs : List (String × Ty)} :
    List.Forall₂ (fun p b => b.1 = p ∧ b.2.isMono = true) params bs ↔
      bs.map (·.1) = params ∧ ∀ b ∈ bs, b.2.isMono = true := by
  induction params generalizing bs with
  | nil => cases bs <;> simp
  | cons p params ih =>
      cases bs with
      | nil => simp
      | cons b bs =>
          rw [List.forall₂_cons, ih, List.map_cons, List.cons.injEq, List.forall_mem_cons]
          constructor
          · rintro ⟨⟨hp, hb⟩, hnames, hbs⟩
            exact ⟨⟨hp, hnames⟩, hb, hbs⟩
          · rintro ⟨⟨hp, hnames⟩, hb, hbs⟩
            exact ⟨⟨hp, hb⟩, hnames, hbs⟩

theorem builds_iff_bindings {name : String} {d : DataType} {v : Variant} {ts : List Ty} {t : Ty}
    (hvariant : r.variant? name = some (d, v)) (howner : d.name ≠ Ty.metaName) :
    r.Builds name ts t ↔ ∃ bs : List (String × Ty),
      List.Forall₂ (fun p b => b.1 = p ∧ b.2.isMono = true) d.params bs ∧
      List.Forall₂ (fun f t => r.resolveClosed (scopeWith bs) f.type = .ok t) v.fields ts ∧
      t = .instanceOf d.name (bs.map (·.2)) := by
  rw [builds_iff_of_data hvariant howner]
  constructor
  · rintro ⟨params, hlength, hmono, hfields, rfl⟩
    have hnames : (d.params.zip params).map (·.1) = d.params :=
      List.map_fst_zip (Nat.le_of_eq hlength.symm)
    have htypes : (d.params.zip params).map (·.2) = params :=
      List.map_snd_zip (Nat.le_of_eq hlength)
    refine ⟨d.params.zip params, forall₂_params_iff.2 ⟨hnames, fun b hb => ?_⟩, ?_, ?_⟩
    · exact hmono b.2 (List.of_mem_zip hb).2
    · rw [← scopeOf_eq hnames, htypes]
      exact hfields
    · rw [htypes]
  · rintro ⟨bs, hbs, hfields, rfl⟩
    obtain ⟨hnames, hmono⟩ := forall₂_params_iff.1 hbs
    refine ⟨bs.map (·.2), ?_, ?_, ?_, rfl⟩
    · rw [← hnames, List.length_map, List.length_map]
    · intro t ht
      obtain ⟨b, hb, rfl⟩ := List.mem_map.1 ht
      exact hmono b hb
    · rw [scopeOf_eq hnames]
      exact hfields

/-- What a constructor builds has a monotype. -/
theorem Builds.isMono {name : String} {ts : List Ty} {t : Ty} (h : r.Builds name ts t) :
    t.isMono = true := by
  cases h with
  | ofData hvariant howner hlength hmono => exact Ty.isMonoList_iff.2 hmono
  | @ofMeta d v ts hvariant howner hfields =>
      refine Ty.isMonoList_iff.2 fun t ht => ?_
      obtain ⟨f, -, declared, hdeclared, hfield⟩ := exists_of_forall₂ hfields ht
      split at hfield
      · have hends : Ends (fun u => u.Within fun _ => True) Fault.IsOrdinary
            (r.resolveClosed [] f.type) := r.resolveClosed_ends (isWhole_of_resolveClosed hdeclared)
          fun _ hb => absurd hb List.not_mem_nil
        rw [hdeclared] at hends
        rw [hfield]
        exact hends.1
      · exact hfield

theorem instantiate_finds_of_hasWholeFields (r : DataTypes) (name : String) :
    Finds freshView (Known (r.HasWholeFields name)) (r.instantiate name) VariantInstance.inScope
      (fun v θ => (v.fields.map (·.type.bind θ), v.result.bind θ))
      fun _ _ b => r.Builds name b.1 b.2 := by
  unfold instantiate
  split
  · exact Finds.throw fun _ _ => by simp [freshView, freshWatch, Fault.IsOrdinary, Fault.kind]
  · rename_i d v hvariant
    have hwhole : ∀ n, Known (r.HasWholeFields name) n → ∀ f ∈ v.fields, f.type.isWhole = true :=
      fun n h => h d v hvariant
    split
    · rename_i howner
      have hfields : Finds freshView (Known (r.HasWholeFields name)) (v.fields.mapM r.metaField)
          (Every fun i => i.type.inScope) (fun is θ => is.map (·.type.bind θ))
          fun _ _ ts => List.Forall₂ r.FieldOfMeta v.fields ts :=
        Finds.mapM (J := fun _ f _ t => r.FieldOfMeta f t)
          (fun f hf => (r.metaField_finds f).of_pre fun n h => hwhole n h f hf)
          (fun n i hi θ θ' hagree => hagree.bind_eq hi) fun _ _ _ _ _ => rfl
      refine Finds.congr (hfields.bind (K := fun _ ts _ b => b = (ts, .variant name ts))
        (fun fields => ?_) fun _ _ _ _ _ => rfl) fun s _ _ θ D b _ => ?_
      · refine Finds.pure (fun n h => ⟨Ty.within_data.2 fun t ht => ?_, h.2⟩)
          fun s _ _ θ D b _ => ?_
        · obtain ⟨i, hi, rfl⟩ := List.mem_map.1 ht
          exact h.2 i hi
        · rw [Ty.variant, Ty.variant, Ty.bind, Ty.bindList_eq_map, List.map_map]
          rfl
      · rw [builds_iff_of_meta hvariant howner]
        rcases b with ⟨ts, t⟩
        simp
    · rename_i howner
      refine Finds.congr ((params_finds d.params).bind (K := fun _ bs _ b => ∃ ts,
        List.Forall₂ (fun f t => r.resolveClosed (scopeWith bs) f.type = .ok t) v.fields ts ∧
          b = (ts, .instanceOf d.name (bs.map (·.2)))) (fun params => ?_) fun _ _ _ _ _ => rfl)
        fun s _ _ θ D b _ => ?_
      · refine (r.fields_finds params v.fields).followedBy (K := fun θ ts _ b =>
          b = (ts, Ty.instanceOf d.name ((params.map fun b => (b.1, b.2.bind θ)).map (·.2))))
          (fun n h => ⟨h.2, hwhole n h.1⟩) (fun fields => ?_) fun n h θ θ' hagree => ?_
        · refine Finds.pure (fun n h => ⟨Ty.within_data.2 fun t ht => ?_, h.2⟩)
            fun s _ _ θ D b _ => ?_
          · obtain ⟨b, hb, rfl⟩ := List.mem_map.1 ht
            exact h.1.2 b hb
          · rw [Ty.instanceOf, Ty.instanceOf, Ty.bind, Ty.bindList_eq_map, List.map_map,
              List.map_map]
            rfl
        · have hsame : (params.map fun b => (b.1, b.2.bind θ)) =
              params.map fun b => (b.1, b.2.bind θ') :=
            List.map_congr_left fun b hb => by rw [hagree.bind_eq (h.2 b hb)]
          rw [hsame]
      · rw [builds_iff_bindings hvariant howner]
        rcases b with ⟨ts, t⟩
        simp

theorem instantiate_finds (r : DataTypes) (name : String) :
    Finds freshView (Known (r.isWhole = true)) (r.instantiate name) VariantInstance.inScope
      (fun v θ => (v.fields.map (·.type.bind θ), v.result.bind θ))
      fun _ _ b => r.Builds name b.1 b.2 :=
  (r.instantiate_finds_of_hasWholeFields name).of_pre fun _ h _ _ hvariant =>
    isWhole_of_variant? h hvariant

theorem bind_scopeWith_of_vars {names : List String} {params : List (String × Ty)}
    (h : List.Forall₂ (fun p b => b.1 = p ∧ ∃ id, b.2 = .var id) names params) (t : Ty) :
    (scopeWith params).bind (fun _ => t) = names.map fun p => (p, some t) := by
  induction h with
  | nil => rfl
  | @cons p b names params hb _ ih =>
      obtain ⟨rfl, id, hid⟩ := hb
      have hhead : (scopeWith (b :: params)).bind (fun _ => t) =
          (b.1, some (b.2.bind fun _ => t)) :: (scopeWith params).bind fun _ => t := rfl
      rw [hhead, ih, hid, Ty.bind]
      rfl

theorem paramKind_eq_type_of_bind {t : Ty} (h : (t.bind θ).paramKind = .type) :
    t.paramKind = .type := by
  cases t with
  | prim kind => exact h
  | _ => rfl

theorem fields_of_isPlain {name : String} {u u' : Supply} {v : VariantInstance}
    (hplain : r.isPlain name = true) (h : Attempt.Returns (r.instantiate name) u v u') :
    v.owner ≠ Ty.metaName ∧ ∀ f ∈ v.fields, f.kind = .type := by
  unfold isPlain at hplain
  unfold instantiate at h
  split at hplain
  · rename_i d variant hvariant
    rw [Bool.and_eq_true, decide_eq_true_eq, List.all_eq_true] at hplain
    obtain ⟨howner, hkinds⟩ := hplain
    simp only [hvariant, if_neg howner] at h
    obtain ⟨params, u₁, hparams, h⟩ := Attempt.returns_bind_iff.1 h
    obtain ⟨fields, u₂, hfields, h⟩ := Attempt.returns_bind_iff.1 h
    cases h
    refine ⟨howner, fun i hi => ?_⟩
    -- the variables of the instance, all made one, are those the kinds are read off
    have hscope : (scopeWith params).bind (fun _ => .var 0) =
        d.params.map fun p => (p, some (.var 0)) := by
      refine bind_scopeWith_of_vars ((Attempt.returns_mapM hparams).imp fun p b hb => ?_) _
      obtain ⟨s₁, s₂, hb⟩ := hb
      cases hb
      exact ⟨rfl, _, rfl⟩
    obtain ⟨f, hf, s₁, s₂, hresolve⟩ := exists_of_forall₂ (Attempt.returns_mapM hfields) hi
    obtain ⟨t, s₃, hresolve, hi⟩ := Attempt.returns_bind_iff.1 hresolve
    cases hi
    rw [Attempt.Returns, Attempt.outcome_liftExcept, Prod.mk.injEq] at hresolve
    have hresolved : r.resolveClosed (scopeWith params) f.type = .ok t := hresolve.1
    have hkind := hkinds f hf
    rw [← hscope, resolveClosed_bind hresolved, decide_eq_true_eq] at hkind
    exact paramKind_eq_type_of_bind hkind
  · cases hplain

end DataTypes

namespace Pattern

variable {r : DataTypes}

/-- The valuations under which a pattern, as far as it has been checked, is one for values of the
expected type. -/
def Typing.Admits (t : Typing) (θ : Valuation) (_ : Naming) : Prop := θ.IsMono ∧ θ.Solves t.subst

theorem Typing.ready_of_inScope {t : Typing} {n : Int} (h : t.inScope n) :
    t.ready (fun _ => True) n :=
  ⟨h, h.settled, fun x u hx => ⟨trivial, (h.subst x u hx).2.imp fun _ _ => trivial⟩,
    fun name u hu => (h.bindings name u hu).imp fun _ _ => trivial⟩

theorem Typing.explains_of_fresh {β : Type} {t : Typing} {n : Int} {v : Valuation → β}
    {J : Valuation → Naming → β → Prop} (ht : t.inScope n)
    (h : Explains n (fun θ _ => θ.IsMono) (fun θ _ => θ.IsMono) v J) :
    Explains n t.Admits t.Admits v J where
  sound θ D hθ := ⟨hθ, (h.sound θ D hθ.1).2⟩
  complete θ D b hθ hj := by
    obtain ⟨θ', hagree, hmono, hvalue⟩ := h.complete θ D b hθ.1 hj
    exact ⟨θ', hagree, ⟨hmono, hθ.2.of_agreesBelow ht.subst hagree⟩, hvalue⟩

theorem Typing.require_explains {t t' : Typing} {expected actual : Ty} {n m : Int}
    (h : t.require expected actual = .ok t') (ht : t.inScope n) (he : expected.inScope n)
    (hactual : actual.isMono = true) (hnew : t.subst.apply actual = actual) :
    Explains m t.Admits t'.Admits (fun _ => ()) fun θ _ _ => expected.bind θ = actual.bind θ := by
  have hexpected := Subst.within_apply ht.subst he
  unfold require at h
  split at h
  · rename_i next hunify
    cases h
    have hgeneral := Ty.unify_mostGeneral hexpected.1 hactual hunify
    have hiff : ∀ θ : Valuation, θ.Solves (t.subst.compose next) ↔
        θ.Solves t.subst ∧ expected.bind θ = actual.bind θ := by
      intro θ
      refine Valuation.solves_compose_iff ht.settled ht.subst.monoRange he.1 hactual ?_
      rw [hnew]
      exact hgeneral
    refine ⟨fun θ D hθ => ?_, fun θ D _ hθ hsame => ?_⟩
    · obtain ⟨hsubst, hsame⟩ := (hiff θ).1 hθ.2
      exact ⟨⟨hθ.1, hsubst⟩, hsame⟩
    · exact ⟨θ, .refl m θ, ⟨hθ.1, (hiff θ).2 ⟨hθ.2, hsame⟩⟩, rfl⟩
  · cases h

theorem Typing.require_bindings {t t' : Typing} {expected actual : Ty}
    (h : t.require expected actual = .ok t') : t'.bindings = t.bindings := by
  unfold require at h
  split at h
  · cases h
    rfl
  · cases h

theorem Typing.under_bindings_agree {t : Typing} {n : Int} {θ θ' : Valuation} (ht : t.inScope n)
    (hagree : θ.AgreesBelow n θ') : t.bindings.under θ = t.bindings.under θ' :=
  TypeEnv.under_congr fun name u hu => hagree.bind_eq (ht.bindings name u hu)

theorem le_of_checkAfter {t t' : Typing} {p : Pattern} {expected : Ty} {u u' : Supply}
    (hrun : Attempt.Returns (checkAfter r t p expected) u t' u') : u ≤ u' := by
  have hgrows := (checkAfter_keeps (P := ⊤) (F := fun _ => True) r (fun _ _ => trivial) t p
    expected).grows u
  rwa [hrun] at hgrows

theorem le_of_checkListAfter {t t' : Typing} {ps : List Pattern} {fields : List Ty} {u u' : Supply}
    (hrun : Attempt.Returns (checkListAfter r t ps fields) u t' u') : u ≤ u' := by
  have hgrows := (checkListAfter_keeps (P := ⊤) (F := fun _ => True) r (fun _ _ => trivial) t ps
    fields).grows u
  rwa [hrun] at hgrows

theorem Typing.ready_of_require {F : Int → Prop} {t t' : Typing} {expected actual : Ty} {n : Int}
    (h : t.require expected actual = .ok t') (ht : t.ready F n) (he : expecting F expected n)
    (ha : expecting (fun x => F x ∧ t.subst.get? x = none) actual n) : t'.ready F n := by
  have hlt := Typing.require_ends ht.1 he.1 (Ty.Within.and ha.1 (ha.2.imp fun _ hx => hx.2))
  have hF := Typing.require_ends ht.2 he.2 ha.2
  rw [h] at hlt hF
  exact ⟨hlt, hF⟩

theorem Typing.expecting_of_returns_instantiate {F : Int → Prop} {t : Typing} {name : String}
    {v : VariantInstance} {u u' : Supply} (hrun : Attempt.Returns (r.instantiate name) u v u')
    (hu : u'.Unwrapped) (hF : ∀ x, u.next ≤ x → F x) (ht : t.inScope u.next) :
    expecting (fun x => F x ∧ t.subst.get? x = none) v.result u'.next ∧
      Every (expecting F) (v.fields.map (·.type)) u'.next := by
  have hnew : ∀ x, u.next ≤ x → t.subst.get? x = none := fun x hx =>
    Option.eq_none_iff_forall_ne_some.2 fun w hw => Int.not_lt.2 hx (ht.subst x w hw).1
  obtain ⟨hresult, hfields⟩ := DataTypes.within_of_returns_instantiate hrun hu
  refine ⟨⟨hresult.imp fun _ hx => hx.2, hresult.imp fun x hx => ⟨hF x hx.1, hnew x hx.1⟩⟩, ?_⟩
  intro w hw
  obtain ⟨f, hf, rfl⟩ := List.mem_map.1 hw
  exact ⟨(hfields f hf).imp fun _ hx => hx.2, (hfields f hf).imp fun x hx => hF x hx.1⟩

mutual

theorem ready_of_checkAfter {F : Int → Prop} {t t' : Typing} {p : Pattern} {expected : Ty}
    {u u' : Supply} (hrun : Attempt.Returns (checkAfter r t p expected) u t' u')
    (hu : u'.Unwrapped) (hF : ∀ x, u.next ≤ x → F x) (ht : t.ready F u.next)
    (he : expecting F expected u.next) : t'.ready F u'.next := by
  cases p with
  | wildcard =>
      cases hrun
      exact ht
  | var name =>
      rw [checkAfter] at hrun
      split at hrun
      · cases hrun
      · cases hrun
        have hbound : ∀ {G : Int → Prop}, t.Sound G → expected.Within G →
            Typing.Sound G { t with bindings := t.bindings.insert name expected } := by
          intro G ht he
          refine { ht with bindings := fun other w hw => ?_ }
          rw [SortedMap.get?_insert] at hw
          split at hw
          · cases hw
            exact he
          · exact ht.bindings other w hw
        exact ⟨hbound ht.1 he.1, hbound ht.2 he.2⟩
  | const value =>
      rw [checkAfter, Attempt.Returns, Attempt.outcome_liftExcept, Prod.mk.injEq] at hrun
      obtain ⟨hrequire, rfl⟩ := hrun
      exact Typing.ready_of_require hrequire ht he ⟨Ty.within_scalar, Ty.within_scalar⟩
  | constructor name args =>
      rw [checkAfter] at hrun
      obtain ⟨v, u₁, hinstance, hrun⟩ := Attempt.returns_bind_iff.1 hrun
      split at hrun
      · cases hrun
      · obtain ⟨t₁, u₂, hrequire, hrun⟩ := Attempt.returns_bind_iff.1 hrun
        rw [Attempt.Returns, Attempt.outcome_liftExcept, Prod.mk.injEq] at hrequire
        obtain ⟨hrequire, rfl⟩ := hrequire
        have hu₁ : u₁.Unwrapped := hu.of_le (le_of_checkListAfter hrun)
        have hle := hu₁.next_le_next (DataTypes.le_of_returns_instantiate hinstance)
        obtain ⟨hresult, hfields⟩ :=
          Typing.expecting_of_returns_instantiate hinstance hu₁ hF ht.1
        have ht₁ := Typing.ready_of_require hrequire ((t.ready F).mono hle ht)
          ((expecting F expected).mono hle he) hresult
        exact ready_of_checkListAfter hrun hu (fun x hx => hF x (Int.le_trans hle hx)) ht₁ hfields

theorem ready_of_checkListAfter {F : Int → Prop} {t t' : Typing} {ps : List Pattern}
    {fields : List Ty} {u u' : Supply}
    (hrun : Attempt.Returns (checkListAfter r t ps fields) u t' u') (hu : u'.Unwrapped)
    (hF : ∀ x, u.next ≤ x → F x) (ht : t.ready F u.next)
    (hfields : Every (expecting F) fields u.next) : t'.ready F u'.next := by
  match ps, fields with
  | [], _ =>
      rw [checkListAfter] at hrun
      · cases hrun
        exact ht
      · simp
  | p :: ps, [] =>
      rw [checkListAfter] at hrun
      · cases hrun
        exact ht
      · simp
  | p :: ps, field :: fields =>
      rw [checkListAfter] at hrun
      obtain ⟨t₁, u₁, hfirst, hrest⟩ := Attempt.returns_bind_iff.1 hrun
      obtain ⟨hfield, hfields⟩ := every_cons.1 hfields
      have hu₁ : u₁.Unwrapped := hu.of_le (le_of_checkListAfter hrest)
      have hle := hu₁.next_le_next (le_of_checkAfter hfirst)
      have ht₁ := ready_of_checkAfter hfirst hu₁ hF ht
        ⟨Subst.within_apply ht.1.subst hfield.1, Subst.within_apply ht.2.subst hfield.2⟩
      exact ready_of_checkListAfter hrest hu (fun x hx => hF x (Int.le_trans hle hx)) ht₁
        ((Every (expecting F) fields).mono hle hfields)

end

mutual

theorem checkAfter_explains {t t' : Typing} {p : Pattern} {expected : Ty}
    {u u' : Supply} (hrun : Attempt.Returns (checkAfter r t p expected) u t' u')
    (hu : u'.Unwrapped) (ht : t.inScope u.next) (he : expected.inScope u.next) :
    Explains u.next t.Admits t'.Admits (fun θ => t'.bindings.under θ)
      fun θ _ B => p.Fits r (t.bindings.under θ) (expected.bind θ) B := by
  cases p with
  | wildcard =>
      cases hrun
      refine Explains.of_iff fun θ D B _ => ?_
      constructor
      · intro h
        cases h
        rfl
      · rintro rfl
        exact .wildcard
  | var name =>
      rw [checkAfter] at hrun
      split at hrun
      · cases hrun
      · rename_i hnew
        cases hrun
        refine ⟨fun θ D hθ => ⟨hθ, ?_⟩, fun θ D B hθ hfits => ⟨θ, .refl _ θ, hθ, ?_⟩⟩
        · rw [TypeEnv.under_insert]
          refine .var ?_
          simp only [Option.isSome_iff_ne_none, ne_eq, not_not] at hnew
          rw [TypeEnv.under, hnew]
          rfl
        · cases hfits
          exact TypeEnv.under_insert _ _ _ _
  | const value =>
      rw [checkAfter, Attempt.Returns, Attempt.outcome_liftExcept, Prod.mk.injEq] at hrun
      obtain ⟨hrequire, rfl⟩ := hrun
      have hscalar : t.subst.apply .scalar = .scalar := by
        rw [Subst.apply_eq_bind]
        rfl
      have hexplains := Typing.require_explains (m := u.next) hrequire ht he rfl hscalar
      rw [Typing.require_bindings hrequire]
      refine ⟨fun θ D hθ => ?_, fun θ D B hθ hfits => ?_⟩
      · obtain ⟨hbefore, hsame⟩ := hexplains.sound θ D hθ
        have hsame : expected.bind θ = .scalar := hsame
        rw [hsame]
        exact ⟨hbefore, .const⟩
      · have hsame : expected.bind θ = Ty.scalar.bind θ ∧ B = t.bindings.under θ := by
          generalize expected.bind θ = s at hfits
          cases hfits
          exact ⟨rfl, rfl⟩
        obtain ⟨θ', hagree, hafter, -⟩ := hexplains.complete θ D () hθ hsame.1
        refine ⟨θ', hagree, hafter, ?_⟩
        rw [hsame.2, t.under_bindings_agree ht hagree]
  | constructor name args =>
      rw [checkAfter] at hrun
      obtain ⟨v, u₁, hinstance, hrun⟩ := Attempt.returns_bind_iff.1 hrun
      split at hrun
      · cases hrun
      · rename_i hlength
        obtain ⟨t₁, u₂, hrequire, hrun⟩ := Attempt.returns_bind_iff.1 hrun
        rw [Attempt.Returns, Attempt.outcome_liftExcept, Prod.mk.injEq] at hrequire
        obtain ⟨hrequire, rfl⟩ := hrequire
        have hu₁ : u₁.Unwrapped := hu.of_le (le_of_checkListAfter hrun)
        have hle := hu₁.next_le_next (DataTypes.le_of_returns_instantiate hinstance)
        obtain ⟨⟨hscope, hfresh⟩, hfields⟩ := Typing.expecting_of_returns_instantiate
          (F := fun _ => True) hinstance hu₁ (fun _ _ => trivial) ht
        have hresult : t.subst.apply v.result = v.result := by
          rw [Subst.apply_eq_bind]
          exact Ty.bind_eq_self fun x hx => Subst.image_of_get?_eq_none (hfresh.2 x hx).2
        have ht₁ : t.inScope u₁.next := t.inScope.mono hle ht
        have he₁ : expected.inScope u₁.next := expected.inScope.mono hle he
        have hready := Typing.ready_of_require hrequire (Typing.ready_of_inScope ht₁)
          ⟨he₁, he₁.imp fun _ _ => trivial⟩ ⟨hscope, hfresh⟩
        have hfields : Every Ty.inScope (v.fields.map (·.type)) u₁.next := fun w hw =>
          (hfields w hw).1
        have hargs := checkListAfter_explains (by simpa using hlength) hrun hu hready.1 hfields
        rw [Typing.require_bindings hrequire] at hargs
        have hvalues := ((Typing.require_explains hrequire ht₁ he₁ hscope.1 hresult).trans
          (K := fun θ _ _ B => FitsList r (t.bindings.under θ) args
            ((v.fields.map (·.type)).map (·.bind θ)) B) hargs (Int.le_refl _)
          fun θ θ' hagree => by
            rw [hagree.map_bind_eq hfields, t.under_bindings_agree ht₁ hagree]).congr
          (L := fun θ _ B => expected.bind θ = v.result.bind θ ∧
            FitsList r (t.bindings.under θ) args (v.fields.map (·.type.bind θ)) B)
          fun θ D B _ => by simp [List.map_map, Function.comp_def]
        have hbuilds := Typing.explains_of_fresh ht
          ((r.instantiate_finds_of_hasWholeFields name).finds u v u₁ hinstance trivial hu₁
            (DataTypes.hasWholeFields_of_returns hinstance))
        refine (hbuilds.trans (K := fun θ b _ B => expected.bind θ = b.2 ∧
          FitsList r (t.bindings.under θ) args b.1 B) hvalues hle fun θ θ' hagree => ?_).congr
          fun θ D B _ => ?_
        · rw [hagree.bind_eq he, t.under_bindings_agree ht hagree]
        · constructor
          · rintro ⟨⟨ts, w⟩, hbuilds, hsame, hargs⟩
            rw [hsame]
            exact .constructor hbuilds hargs
          · intro h
            cases h with
            | constructor hbuilds hargs => exact ⟨(_, _), hbuilds, rfl, hargs⟩

theorem checkListAfter_explains {t t' : Typing} {ps : List Pattern}
    {fields : List Ty} {u u' : Supply} (hlength : ps.length = fields.length)
    (hrun : Attempt.Returns (checkListAfter r t ps fields) u t' u') (hu : u'.Unwrapped)
    (ht : t.inScope u.next) (hfields : Every Ty.inScope fields u.next) :
    Explains u.next t.Admits t'.Admits (fun θ => t'.bindings.under θ)
      fun θ _ B => FitsList r (t.bindings.under θ) ps (fields.map (·.bind θ)) B := by
  match ps, fields, hlength with
  | [], [], _ =>
      rw [checkListAfter] at hrun
      · cases hrun
        refine Explains.of_iff fun θ D B _ => ?_
        constructor
        · intro h
          cases h
          rfl
        · rintro rfl
          exact .nil
      · simp
  | p :: ps, field :: fields, hlength =>
      rw [checkListAfter] at hrun
      obtain ⟨t₁, u₁, hfirst, hrest⟩ := Attempt.returns_bind_iff.1 hrun
      obtain ⟨hfield, hfields⟩ := every_cons.1 hfields
      have hu₁ : u₁.Unwrapped := hu.of_le (le_of_checkListAfter hrest)
      have hle := hu₁.next_le_next (le_of_checkAfter hfirst)
      have hknown : (t.subst.apply field).inScope u.next := Subst.within_apply ht.subst hfield
      have ht₁ := ready_of_checkAfter hfirst hu₁ (fun _ _ => trivial) (Typing.ready_of_inScope ht)
        ⟨hknown, hknown.imp fun _ _ => trivial⟩
      have hhead := (checkAfter_explains hfirst hu₁ ht hknown).congr
        (L := fun θ _ B => p.Fits r (t.bindings.under θ) (field.bind θ) B) fun θ D B hθ => by
          rw [hθ.2.bind_apply hfield.1]
      have htail := checkListAfter_explains (Nat.succ.inj hlength) hrest hu ht₁.1
        ((Every Ty.inScope fields).mono hle hfields)
      refine (hhead.trans (K := fun θ B _ B' => FitsList r B ps (fields.map (·.bind θ)) B') htail
        hle fun θ θ' hagree => ?_).congr fun θ D B _ => ?_
      · rw [hagree.map_bind_eq hfields]
      · constructor
        · rintro ⟨B₁, hp, hps⟩
          exact .cons hp hps
        · rintro h
          cases h with
          | cons hp hps => exact ⟨_, hp, hps⟩

end

theorem check_explains {t : Typing} {p : Pattern} {expected : Ty}
    {u u' : Supply} (hrun : Attempt.Returns (p.check r expected) u t u') (hu : u'.Unwrapped)
    (he : expected.inScope u.next) :
    Explains u.next (fun θ _ => θ.IsMono) t.Admits (fun θ => t.bindings.under θ)
      fun θ _ B => p.Fits r .empty (expected.bind θ) B := by
  obtain ⟨t₁, u₁, hcheck, hrun⟩ := Attempt.returns_bind_iff.1 hrun
  cases hrun
  have hready := ready_of_checkAfter hcheck hu (F := fun _ => True) (fun _ _ => trivial)
    ⟨Typing.start_sound _, Typing.start_sound _⟩ ⟨he, he.imp fun _ _ => trivial⟩
  have hmono : ∀ name w, t₁.bindings.get? name = some w → w.isMono = true := fun name w hw =>
    (hready.1.bindings name w hw).1
  have hexplains := checkAfter_explains hcheck hu (Typing.start_sound _) he
  have hvalue : ∀ θ D, t₁.Admits θ D → t₁.bindings.under θ =
      TypeEnv.under (t₁.bindings.mapValues t₁.subst.apply) θ := by
    intro θ D hθ
    funext name
    rw [TypeEnv.under, TypeEnv.under, SortedMap.get?_mapValues, Option.map_map]
    cases hget : t₁.bindings.get? name with
    | none => rfl
    | some w => simp [hθ.2.bind_apply (hmono name w hget)]
  refine ⟨fun θ D hθ => ?_, fun θ D B hθ hfits => ?_⟩
  · obtain ⟨hstart, hfits⟩ := (hexplains.congr_value hvalue).sound θ D hθ
    exact ⟨hstart.1, hfits⟩
  · exact (hexplains.congr_value hvalue).complete θ D B ⟨hθ, θ.solves_empty⟩ hfits

mutual

/-- A pattern binds its variables. -/
theorem Fits.isSome_iff {B B' : Naming} {p : Pattern} {t : Ty} (h : p.Fits r B t B')
    (name : String) : (B' name).isSome = true ↔ name ∈ p.vars ∨ (B name).isSome = true := by
  cases p with
  | wildcard =>
      cases h
      simp [vars]
  | var other =>
      cases h
      rw [Function.update_apply, vars, List.mem_singleton]
      by_cases heq : name = other <;> simp [heq]
  | const value =>
      cases h
      simp [vars]
  | constructor constructorName args =>
      cases h with
      | constructor _ hargs => exact hargs.isSome_iff name

theorem FitsList.isSome_iff {B B' : Naming} {ps : List Pattern} {ts : List Ty}
    (h : FitsList r B ps ts B') (name : String) :
    (B' name).isSome = true ↔ name ∈ varsList ps ∨ (B name).isSome = true := by
  match ps with
  | [] =>
      cases h
      simp [varsList]
  | p :: ps =>
      cases h with
      | cons hp hps =>
          rw [hps.isSome_iff name, hp.isSome_iff name, varsList, List.mem_append]
          tauto

end

theorem FitsList.length_eq {B B' : Naming} {ps : List Pattern} {ts : List Ty}
    (h : FitsList r B ps ts B') : ps.length = ts.length := by
  induction ps generalizing B ts with
  | nil =>
      cases h
      rfl
  | cons p ps ih =>
      cases h with
      | cons _ hps => rw [List.length_cons, List.length_cons, ih hps]

end Pattern

end Formulary
