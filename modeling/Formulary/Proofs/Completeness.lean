import Formulary.Proofs.FirstOrder

namespace Formulary

section

variable {σ ε α β γ δ : Type} {w : View σ ε} {P P' : Upward} {A : α → Upward}
  {read : α → Valuation → β} {J : Valuation → Naming → β → Prop}

/-- Steps that succeed if what they stand for holds of something under some valuation that is left
open. -/
def Succeeds (w : View σ ε) (P : Upward) (m : Attempt σ ε α) (J : Valuation → Naming → β → Prop) :
    Prop :=
  ∀ s, w.sound s → (w.supply (m.outcome s).2).Unwrapped → P (w.supply s).next →
    ∀ θ D b, w.admits s θ D → J θ D b → ∃ a s', m.Returns s a s'

namespace Succeeds

variable {m : Attempt σ ε α}

theorem of_returns (h : ∀ s, ∃ a s', m.Returns s a s') : Succeeds w P m J :=
  fun s _ _ _ _ _ _ _ _ => h s

theorem of_pre (h : Succeeds w P m J) (hP : ∀ n, P' n → P n) : Succeeds w P' m J :=
  fun s hs hu hpre => h s hs hu (hP _ hpre)

theorem imp {K : Valuation → Naming → γ → Prop} (h : Succeeds w P m J)
    (hK : ∀ s, w.sound s → P (w.supply s).next → ∀ θ D c, w.admits s θ D → K θ D c → ∃ b, J θ D b) :
    Succeeds w P m K := by
  intro s hs hu hpre θ D c hθ hk
  obtain ⟨b, hj⟩ := hK s hs hpre θ D c hθ hk
  exact h s hs hu hpre θ D b hθ hj

theorem of_known {φ : Prop} (hφ : ∀ n, P n → φ) (h : φ → Succeeds w P m J) : Succeeds w P m J :=
  fun s hs hu hpre => h (hφ _ hpre) s hs hu hpre

theorem of_judgement {φ : Prop}
    (hφ : ∀ s, w.sound s → P (w.supply s).next → ∀ θ D b, w.admits s θ D → J θ D b → φ)
    (h : φ → Succeeds w P m J) : Succeeds w P m J :=
  fun s hs hu hpre θ D b hθ hj => h (hφ s hs hpre θ D b hθ hj) s hs hu hpre θ D b hθ hj

/-- The first of two steps hand out no more variables than both. -/
theorem supply_le_bind {f : α → Attempt σ ε γ}
    (hgrows : ∀ a s, w.supply s ≤ w.supply ((f a).outcome s).2) (s : σ) :
    w.supply (m.outcome s).2 ≤ w.supply ((m >>= f).outcome s).2 := by
  rw [Attempt.outcome_bind]
  cases m.outcome s with
  | mk r s₁ =>
      cases r with
      | ok a => exact hgrows a s₁
      | error e => exact le_rfl

theorem bind {f : α → Attempt σ ε γ} {K : Valuation → β → Naming → δ → Prop}
    (hm : Succeeds w P m J) (hfinds : Finds w P m A read J)
    (hgrows : ∀ a s, w.supply s ≤ w.supply ((f a).outcome s).2)
    (hf : ∀ a, Succeeds w (P ⊓ A a) (f a) fun θ => K θ (read a θ))
    (hlocal : ∀ n, P n → ∀ θ θ', Valuation.AgreesBelow n θ θ' → K θ = K θ') :
    Succeeds w P (m >>= f) fun θ D d => ∃ b, J θ D b ∧ K θ b D d := by
  intro s hs hu hpre θ D d hθ hd
  obtain ⟨b, hj, hk⟩ := hd
  have hle := supply_le_bind (m := m) hgrows s
  obtain ⟨a, s₁, hfirst⟩ := hm s hs (hu.of_le hle) hpre θ D b hθ hj
  rw [hfirst] at hle
  have hu₁ : (w.supply s₁).Unwrapped := hu.of_le hle
  obtain ⟨hs₁, ha, hnext⟩ := hfinds.toKeeps.of_returns hfirst hu₁ hs hpre
  obtain ⟨θ', hagree, hθ', rfl⟩ :=
    (hfinds.finds s a s₁ hfirst hs hu₁ hpre).complete θ D b hθ hj
  rw [hlocal _ hpre θ θ' hagree] at hk
  have hsecond : (m >>= f).outcome s = (f a).outcome s₁ := by
    rw [Attempt.outcome_bind, hfirst]
  rw [hsecond] at hu
  obtain ⟨c, s', hrun⟩ := hf a s₁ hs₁ hu ⟨P.mono hnext hpre, ha⟩ θ' D d hθ' hk
  exact ⟨c, s', hsecond.trans hrun⟩

theorem followedBy {f : α → Attempt σ ε γ} {K : Valuation → β → Naming → δ → Prop}
    (hm : Succeeds w P' m J) (hfinds : Finds w P' m A read J) (hP : ∀ n, P n → P' n)
    (hgrows : ∀ a s, w.supply s ≤ w.supply ((f a).outcome s).2)
    (hf : ∀ a, Succeeds w (P ⊓ A a) (f a) fun θ => K θ (read a θ))
    (hlocal : ∀ n, P n → ∀ θ θ', Valuation.AgreesBelow n θ θ' → K θ = K θ') :
    Succeeds w P (m >>= f) fun θ D d => ∃ b, J θ D b ∧ K θ b D d :=
  (hm.of_pre hP).bind (hfinds.of_pre hP) hgrows hf hlocal

/-- Steps behind which anything goes that always succeeds. -/
theorem bind_returns {f : α → Attempt σ ε γ} (hm : Succeeds w P m J)
    (hgrows : ∀ a s, w.supply s ≤ w.supply ((f a).outcome s).2)
    (hf : ∀ a s, ∃ c s', (f a).Returns s c s') : Succeeds w P (m >>= f) J := by
  intro s hs hu hpre θ D b hθ hj
  obtain ⟨a, s₁, hfirst⟩ := hm s hs (hu.of_le (supply_le_bind hgrows s)) hpre θ D b hθ hj
  obtain ⟨c, s', hrun⟩ := hf a s₁
  exact ⟨c, s', Attempt.returns_bind_iff.2 ⟨a, s₁, hfirst, hrun⟩⟩

end Succeeds

end

namespace Inference

variable {P : Upward} {α β : Type} {J : Valuation → Naming → β → Prop}

theorem unify_succeeds (c : Context) (a b : Ty) :
    Succeeds inferView (a.inScope ⊓ b.inScope) (unify c a b) fun θ _ (_ : Unit) =>
      a.bind θ = b.bind θ := by
  intro s hs hu hpre θ D _ hθ hsame
  have hs : s.Sound := hs
  have ha := Subst.within_apply hs.subst.2 hpre.1
  have hb := Subst.within_apply hs.subst.2 hpre.2
  have hsubst : θ.Solves s.subst := hθ.subst
  rw [← hsubst.bind_apply hpre.1.1, ← hsubst.bind_apply hpre.2.1] at hsame
  obtain ⟨found, hunify⟩ := Ty.exists_unify_eq_ok ha.1 hb.1 hsame
  obtain ⟨line, houtcome⟩ := outcome_unify c a b s
  rw [hunify] at houtcome
  exact ⟨(), _, houtcome⟩

theorem supply_outcome_blaming (e : Expr) (m : Infer α) (s : State) :
    ((blaming e m).outcome s).2.supply = (m.outcome s).2.supply := by
  rw [outcome_blaming]
  rcases m.outcome s with ⟨_ | _, _⟩ <;> rfl

theorem blaming_succeeds {e : Expr} {steps : Infer α} (h : Succeeds inferView P steps J) :
    Succeeds inferView P (blaming e steps) J := by
  intro s hs hu hpre θ D b hθ hj
  have hu : (steps.outcome s).2.supply.Unwrapped := supply_outcome_blaming e steps s ▸ hu
  obtain ⟨a, s', hrun⟩ := h s hs hu hpre θ D b hθ hj
  exact ⟨a, s', returns_blaming.2 hrun⟩

theorem unifyFor_succeeds (c : Context) (requirer : Requirer) (e : Expr) (a b : Ty) :
    Succeeds inferView (a.inScope ⊓ b.inScope) (unifyFor c requirer e a b) fun θ _ (_ : Unit) =>
      a.bind θ = b.bind θ := by
  intro s hs hu hpre θ D u hθ hsame
  have hsupply : ((unifyFor c requirer e a b).outcome s).2.supply =
      ((unify c a b).outcome s).2.supply := by
    rw [unifyFor, Attempt.outcome_tryCatch]
    cases (unify c a b).outcome s with
    | mk r s' =>
        cases r with
        | ok a => rfl
        | error f => rfl
  have hu : ((unify c a b).outcome s).2.supply.Unwrapped := hsupply ▸ hu
  obtain ⟨_, s', hrun⟩ := unify_succeeds c a b s hs hu hpre θ D u hθ hsame
  refine ⟨(), s', ?_⟩
  rw [Attempt.Returns, unifyFor, Attempt.outcome_tryCatch, hrun]

theorem fresh_succeeds {steps : Fresh α} (h : Succeeds freshView P steps J) :
    Succeeds inferView P (fresh steps) J := by
  intro s hs hu hpre θ D b hθ hj
  have hu : (Attempt.outcome steps s.supply).2.Unwrapped := by
    rw [outcome_fresh] at hu
    exact hu
  obtain ⟨a, supply, hrun⟩ := h s.supply trivial hu hpre θ D b hθ.mono hj
  refine ⟨a, { s with supply }, ?_⟩
  rw [Attempt.Returns, outcome_fresh, hrun]

theorem returns_freshVar (s : State) : ∃ t s', freshVar.Returns s t s' := ⟨_, _, rfl⟩

theorem returns_known (t : Ty) (s : State) : ∃ u s', (known t).Returns s u s' := ⟨_, _, rfl⟩

theorem returns_instantiate (t : Ty) (s : State) : ∃ u s', (instantiate t).Returns s u s' :=
  ⟨_, _, rfl⟩

theorem returns_freeName (name : String) (s : State) :
    ∃ t s', (freeName name).Returns s t s' := by
  unfold freeName
  cases hlookup : s.free.lookup name with
  | some id => exact ⟨.var id, s, Attempt.returns_bind_iff.2 ⟨s, s, rfl, by simp only [hlookup]; rfl⟩⟩
  | none => exact ⟨_, _, Attempt.returns_bind_iff.2 ⟨s, s, rfl, by simp only [hlookup]; rfl⟩⟩

theorem bindFields_succeeds (c : Context) (v : VariantInstance) (index : Nat)
    (fields : List FieldInstance) (args : List (Expr × Ty)) (hlength : args.length = fields.length)
    (hkinds : ∀ f ∈ fields, f.kind = .type) :
    Succeeds inferView (fieldsInScope fields ⊓ argsInScope args) (bindFields c v index fields args)
      fun θ _ (_ : Unit) => fields.map (·.type.bind θ) = args.map (·.2.bind θ) := by
  induction fields generalizing index args with
  | nil =>
      obtain rfl : args = [] := List.eq_nil_of_length_eq_zero hlength
      exact .of_returns fun s => ⟨(), s, rfl⟩
  | cons field fields ih =>
      cases args with
      | nil => cases hlength
      | cons arg args =>
          rw [bindFields]
          have hkind : field.kind = .type := hkinds field (List.mem_cons_self ..)
          have hfield : bindField c v index field arg.1 arg.2 = unify c field.type arg.2 := by
            unfold bindField
            exact if_pos hkind
          rw [hfield]
          refine Succeeds.imp ((unify_succeeds c field.type arg.2).followedBy (K := fun θ _ _ _ =>
            fields.map (·.type.bind θ) = args.map (·.2.bind θ)) (unify_finds c field.type arg.2)
            (fun n h => ⟨(every_cons.1 h.1).1, (every_cons.1 h.2).1⟩)
            (fun _ s => (bindFields_keeps c v (index + 1) fields args).grows s)
            (fun _ => (ih (index + 1) args (Nat.succ.inj hlength)
              fun f hf => hkinds f (List.mem_cons_of_mem _ hf)).of_pre fun n h =>
                ⟨(every_cons.1 h.1.1).2, (every_cons.1 h.1.2).2⟩)
            fun n h θ θ' hagree => ?_) fun s _ _ θ D u _ hsame => ?_
          · have hfields : fields.map (·.type.bind θ) = fields.map (·.type.bind θ') :=
              List.map_congr_left fun f hf => hagree.bind_eq (h.1 f (List.mem_cons_of_mem _ hf))
            have hargs : args.map (·.2.bind θ) = args.map (·.2.bind θ') :=
              List.map_congr_left fun a ha => hagree.bind_eq (h.2 a (List.mem_cons_of_mem _ ha))
            rw [hfields, hargs]
          · rw [List.map_cons, List.map_cons, List.cons.injEq] at hsame
            exact ⟨(), (), hsame⟩

theorem inferConstruction_succeeds (c : Context) (e : Expr) (name : String) (args : List (Expr × Ty))
    (hplain : c.data.isPlain name = true) :
    Succeeds inferView (Known (c.data.isWhole = true) ⊓ argsInScope args)
      (inferConstruction c e name args) fun θ _ t =>
        c.data.Builds name (args.map (·.2.bind θ)) t := by
  have hvariant := (c.data.instantiate_finds name).and_known
    fun s v s' hrun _ _ _ => DataTypes.fields_of_isPlain hplain hrun
  have hinstance : Succeeds freshView (Known (c.data.isWhole = true)) (c.data.instantiate name)
      fun _ _ (b : List Ty × Ty) => c.data.Builds name b.1 b.2 :=
    fun s _ _ _ _ _ b _ hbuilds => DataTypes.returns_instantiate_of_builds hbuilds s
  unfold inferConstruction
  refine Succeeds.imp ((blaming_succeeds (fresh_succeeds hinstance)).followedBy (K := fun θ b _ t =>
    b.1 = args.map (·.2.bind θ) ∧ t = b.2) (blaming_finds (fresh_finds hvariant)) (fun n h => h.1)
    (fun v s => (arguments_keeps c e name args v).grows s) (fun v => ?_)
    fun n h θ θ' hagree => ?_) fun s _ _ θ D t _ hbuilds => ⟨t, (_, t), hbuilds, rfl, rfl⟩
  · refine Succeeds.of_judgement (φ := args.length = v.fields.length)
      (fun s _ _ θ D t _ ⟨hsame, _⟩ => ?_) fun hlength => ?_
    · simpa using (congrArg List.length hsame).symm
    · rw [if_pos hlength]
      refine Succeeds.of_known (fun n h => h.2.2) fun hplain => ?_
      refine Succeeds.imp (Succeeds.bind_returns ((blaming_succeeds (bindFields_succeeds c v 0
        v.fields args hlength hplain.2)).of_pre fun n h => ⟨h.2.1.2, h.1.2⟩)
        (fun _ s => (known_keeps v.result).grows s) fun _ s => returns_known v.result s)
        fun s _ _ θ D t _ hsame => ⟨(), hsame.1⟩
  · have hargs : args.map (·.2.bind θ) = args.map (·.2.bind θ') :=
      List.map_congr_left fun a ha => hagree.bind_eq (h.2 a ha)
    rw [hargs]

theorem applyTo_succeeds (c : Context) (e : Expr) (requirer : Requirer) (fn : Ty) (args : List Ty) :
    Succeeds inferView (fn.inScope ⊓ Every Ty.inScope args) (applyTo c e requirer fn args)
      fun θ _ (u : Ty) => u.isMono = true ∧ fn.bind θ = Ty.curry (args.map (·.bind θ)) u := by
  have hfresh : Succeeds inferView (fn.inScope ⊓ Every Ty.inScope args) freshVar
      fun _ _ (t : Ty) => t.isMono = true := .of_returns returns_freshVar
  refine Succeeds.imp (hfresh.bind (K := fun θ r _ (_ : Unit) =>
    fn.bind θ = Ty.curry (args.map (·.bind θ)) r) freshVar_finds (fun result s => ?_)
    (fun result => ?_) fun n h θ θ' hagree => ?_)
    fun s _ _ θ D u _ hsame => ⟨(), u, hsame⟩
  · have hrest : Keeps inferWatch ⊥ (do
        unifyFor c requirer e fn (Ty.curry args result)
        known result) fun _ => ⊤ := (unifyFor_keeps c requirer e fn _).followedBy
      (fun _ h => h.elim) fun _ => (known_keeps result).weaken (fun _ h => h.1.elim) fun _ _ _ => trivial
    exact hrest.grows s
  · refine Succeeds.imp (Succeeds.bind_returns ((unifyFor_succeeds c requirer e fn
      (Ty.curry args result)).of_pre fun n h => ⟨h.1.1, Ty.within_curry.2 ⟨h.1.2, h.2⟩⟩)
      (fun _ s => (known_keeps result).grows s) fun _ s => returns_known result s)
      fun s _ _ θ D _ _ hsame => ⟨(), ?_⟩
    rw [hsame, bind_curry]
  · rw [hagree.bind_eq h.1, hagree.map_bind_eq h.2]

theorem inferApplication_cases (c : Context) (e : Expr) (name : String) (args : List Ty) {t fn : Ty}
    {s s₁ : State} (hfn : (instantiate t).Returns s fn s₁) :
    (∃ n, arity? (s₁.subst.apply fn) = some n ∧ n ≠ args.length ∧ ∃ s₂,
        (inferApplication c e name t args).outcome s = (.error (.arity name n args.length), s₂) ∧
          s₂.supply = s₁.supply) ∨
      (∀ n, arity? (s₁.subst.apply fn) = some n → n = args.length) ∧
        (inferApplication c e name t args).outcome s =
          (applyTo c e (.function name) fn args).outcome s₁ := by
  have hknown : (known fn).Returns s₁ (s₁.subst.apply fn) s₁ := rfl
  rw [inferApplication, Attempt.outcome_bind, hfn]
  dsimp only
  rw [Attempt.outcome_bind, hknown]
  dsimp only
  cases hn : arity? (s₁.subst.apply fn) with
  | none => exact .inr ⟨fun _ h => absurd h.symm (Option.some_ne_none _), rfl⟩
  | some n =>
      by_cases hlength : n = args.length
      · simp only [ne_eq, hlength, not_true_eq_false, if_false]
        exact .inr ⟨fun n h => (Option.some.inj h).symm, rfl⟩
      · simp only [ne_eq, hlength, not_false_eq_true, if_true]
        rw [failAt_bind]
        exact .inl ⟨n, rfl, hlength, _, rfl, rfl⟩

theorem outcome_inferApplication {c : Context} {e : Expr} {name : String} {t fn : Ty}
    {args : List Ty} {s s₁ : State} (hfn : (instantiate t).Returns s fn s₁) (hs : s.Sound)
    (hu : ((inferApplication c e name t args).outcome s).2.supply.Unwrapped)
    (hclosed : t.isClosedScheme = true) (htakes : t.takes args.length = true) :
    (inferApplication c e name t args).outcome s =
      (applyTo c e (.function name) fn args).outcome s₁ := by
  rcases inferApplication_cases c e name args hfn with
    ⟨n, hn, hlength, s₂, hrefused, hsupply⟩ | ⟨-, happlied⟩
  · rw [hrefused] at hu
    have hu : s₁.supply.Unwrapped := hsupply ▸ hu
    obtain ⟨hsame, harity⟩ := apply_of_instantiate hfn hs hu hclosed
    rw [hsame, harity] at hn
    unfold Ty.takes at htakes
    exact absurd (by simpa [hn] using htakes) hlength
  · exact happlied

theorem inferApplication_succeeds (c : Context) (e : Expr) (name : String) (t : Ty) (args : List Ty)
    (hclosed : t.isClosedScheme = true) (htakes : t.takes args.length = true) :
    Succeeds inferView (t.fixedBelow ⊓ Every Ty.inScope args) (inferApplication c e name t args)
      fun θ _ u => (t.bind θ).Instance (Ty.curry (args.map (·.bind θ)) u) := by
  intro s hs hu hpre θ D u hθ hinstance
  obtain ⟨fn, s₁, hfn⟩ := returns_instantiate t s
  have hrun := outcome_inferApplication hfn hs hu hclosed htakes
  rw [hrun] at hu
  have hu₁ : s₁.supply.Unwrapped := hu.of_le ((applyTo_finds c e (.function name) fn args).grows s₁)
  obtain ⟨hs₁, hscope, hle⟩ := (instantiate_finds t).of_returns hfn hu₁ hs hpre.1
  obtain ⟨θ', hagree, hθ', hvalue⟩ :=
    ((instantiate_finds t).finds s fn s₁ hfn hs hu₁ hpre.1).complete θ D _ hθ hinstance
  have hmono := hinstance.isMono (Ty.isMono_body_of_fixedBelow hpre.1 hθ.mono)
  have hargs : args.map (·.bind θ) = args.map (·.bind θ') := hagree.map_bind_eq hpre.2
  obtain ⟨u', s', happly⟩ := applyTo_succeeds c e (.function name) fn args s₁ hs₁ hu
    ⟨hscope, (Every Ty.inScope args).mono hle hpre.2⟩ θ' D u hθ'
    ⟨((Ty.within_curry (F := fun _ => True)).1 ⟨hmono, fun _ _ => trivial⟩).2.1, hargs ▸ hvalue⟩
  exact ⟨u', s', hrun.trans happly⟩

variable {c : Context} {env : TypeEnv}

theorem inferName_succeeds {name : String}
    (hcore : (Expr.object name).isCore c.registry (knows env) = true) :
    Succeeds inferView (prepared c env) (inferName c env name)
      fun θ D t => HasType c.registry D (env.under θ) (.object name) t := by
  unfold inferName
  cases hget : env.get? name with
  | some t => exact .of_returns (returns_instantiate t)
  | none =>
      have hknows : knows env name = false := by simp [knows, hget]
      dsimp only
      rcases Expr.isOpen_or_of_isCore hcore hknows with hopen | ⟨d, written, hvariant, howner⟩
      · split
        · rename_i hvariant
          have hvariant : c.registry.data.variant? name = _ := hvariant
          simp [Registry.isOpen, hvariant] at hopen
        · rename_i hop hvariant
          rw [if_neg (by simp [Registry.isEmpty_of_isOpen hopen hop])]
          exact .of_returns (returns_freeName name)
        · exact .of_returns (returns_freeName name)
      · have hplain : c.data.isPlain name = true := by
          simp [DataTypes.isPlain, Context.data, hvariant, howner]
        have hclosed : c.registry.isOpen name = false := by simp [Registry.isOpen, hvariant]
        rw [show c.data.variant? name = some (d, ⟨written, []⟩) from hvariant]
        refine Succeeds.imp ((inferConstruction_succeeds c (.object name) name [] hplain).of_pre
          fun n h => ⟨Registry.isWhole_data h.1, every_nil _ n⟩) fun s _ _ θ D t _ htype => ⟨t, ?_⟩
        cases htype with
        | bound hname => simp [TypeEnv.under, hget] at hname
        | constructor _ hbuilds => exact hbuilds
        | free _ hopen => simp [hclosed] at hopen

theorem inferCall_succeeds {name : String} {args : List Expr} {types : List Ty}
    (henv : ∀ name t, env.get? name = some t → t.isClosedScheme = true)
    (hlength : types.length = args.length)
    (hcore : (if (c.data.variant? name).isSome then c.data.isPlain name else knows env name) = true)
    (htakes : (c.data.variant? name).isSome = true ∨ takes env name args.length = true) :
    Succeeds inferView (prepared c env ⊓ Every Ty.inScope types) (inferCall c env name args types)
      fun θ _ t => c.data.Builds name (types.map (·.bind θ)) t ∨ c.data.variant? name = none ∧
        ∃ scheme, env.under θ name = some scheme ∧
          scheme.Instance (Ty.curry (types.map (·.bind θ)) t) := by
  unfold inferCall
  by_cases hvariant : (c.data.variant? name).isSome = true
  · rw [if_pos hvariant] at hcore
    rw [if_pos hvariant]
    refine Succeeds.imp ((inferConstruction_succeeds c _ name (args.zip types) hcore).of_pre
      fun n h => ⟨Registry.isWhole_data h.1.1, fun a ha => h.2 a.2 (List.of_mem_zip ha).2⟩)
      fun s _ _ θ D t _ htype => ⟨t, ?_⟩
    rw [map_zip_bind hlength]
    rcases htype with hbuilds | ⟨hnone, -⟩
    · exact hbuilds
    · simp [hnone] at hvariant
  · rw [if_neg hvariant] at hcore
    rw [if_neg hvariant]
    obtain ⟨t, ht⟩ := Option.isSome_iff_exists.1 hcore
    have htakes : t.takes types.length = true := by
      simpa [hvariant, takes, ht, hlength] using htakes
    rw [ht]
    refine Succeeds.imp ((inferApplication_succeeds c _ name t types (henv name t ht) htakes).of_pre
      fun n h => ⟨h.1.2 name t ht, h.2⟩) fun s _ _ θ D u _ htype => ⟨u, ?_⟩
    rcases htype with hbuilds | ⟨-, scheme, hscheme, hinstance⟩
    · exact absurd (by simpa using hvariant) hbuilds.ne_none
    · rw [TypeEnv.under, ht, Option.map_some, Option.some.injEq] at hscheme
      exact hscheme ▸ hinstance

mutual

theorem infer_succeeds {defs : List Definition} {e : Expr}
    (henv : ∀ name t, env.get? name = some t → t.isClosedScheme = true)
    (hnormal : e.isNormal defs = true) (hcore : e.isCore c.registry (knows env) = true)
    (horder : e.isFirstOrder c.registry (takes env) [] = true) :
    Succeeds inferView (prepared c env) (infer c env e)
      fun θ D t => HasType c.registry D (env.under θ) e t := by
  cases e with
  | blank => cases hnormal
  | const value => exact .of_returns fun s => ⟨.scalar, s, rfl⟩
  | object name => exact inferName_succeeds hcore
  | operation name args =>
      rw [Expr.isNormal, Bool.and_eq_true] at hnormal
      rw [Expr.isCore, Bool.and_eq_true] at hcore
      rw [Expr.isFirstOrder, Bool.and_eq_true] at horder
      have hfinds := inferList_finds c env args hcore.2
      rw [infer]
      refine Succeeds.imp ((inferList_succeeds henv hnormal.2 hcore.2 horder.2).bind
        (K := fun θ ts _ t => c.data.Builds name ts t ∨ c.data.variant? name = none ∧ ∃ scheme,
          env.under θ name = some scheme ∧ scheme.Instance (Ty.curry ts t)) hfinds
        (fun types s => (inferCall_keeps c env name args types).grows s) (fun types => ?_)
        fun n h θ θ' hagree => ?_) fun s _ _ θ D t _ htype => ⟨t, ?_⟩
      · refine Succeeds.of_known (fun n h => h.2.2) fun hlength => ?_
        have hhead : (c.data.variant? name).isSome = true ∨ takes env name args.length = true := by
          simpa [Context.data] using horder.1
        exact (inferCall_succeeds henv hlength hcore.1 hhead).of_pre fun n h => ⟨h.1, h.2.1⟩
      · rw [under_agree h.2 hagree]
      · cases htype with
        | construction hargs hbuilds => exact ⟨_, hargs, .inl hbuilds⟩
        | call hnone hscheme hargs hinstance =>
            exact ⟨_, hargs, .inr ⟨hnone, _, hscheme, hinstance⟩⟩
  | matching scrutinee cases => cases hnormal

theorem inferList_succeeds {defs : List Definition} {es : List Expr}
    (henv : ∀ name t, env.get? name = some t → t.isClosedScheme = true)
    (hnormal : Expr.isNormalList defs es = true)
    (hcore : Expr.isCoreList c.registry (knows env) es = true)
    (horder : Expr.isFirstOrderList c.registry (takes env) [] es = true) :
    Succeeds inferView (prepared c env) (inferList c env es)
      fun θ D ts => HasTypes c.registry D (env.under θ) es ts := by
  cases es with
  | nil => exact .of_returns fun s => ⟨[], s, rfl⟩
  | cons e es =>
      rw [Expr.isNormalList, Bool.and_eq_true] at hnormal
      rw [Expr.isCoreList, Bool.and_eq_true] at hcore
      rw [Expr.isFirstOrderList, Bool.and_eq_true] at horder
      have hfinds := infer_finds c env e hcore.1
      rw [inferList]
      refine Succeeds.imp ((infer_succeeds henv hnormal.1 hcore.1 horder.1).bind
        (K := fun θ _ D us => HasTypes c.registry D (env.under θ) es us) hfinds (fun t s => ?_)
        (fun t => ?_) fun n h θ θ' hagree => ?_) fun s _ _ θ D ts _ htypes => ?_
      · have hrest : Keeps inferWatch ⊥ (do return t :: (← inferList c env es)) fun _ => ⊤ :=
          ((inferList_keeps c env es).of_pre fun _ (h : False) => h.elim).bind fun _ =>
            .pure fun _ _ => trivial
        exact hrest.grows s
      · exact Succeeds.bind_returns ((inferList_succeeds henv hnormal.2 hcore.2 horder.2).of_pre
          fun n h => h.1) (fun us s => le_rfl) fun us s => ⟨t :: us, s, rfl⟩
      · rw [under_agree h.2 hagree]
      · cases htypes with
        | cons he hes => exact ⟨_, _, he, hes⟩

end

theorem settleType_grows (c : Context) (e : Expr) (t : Ty) (s : State) :
    s.supply ≤ ((settleType c e t).outcome s).2.supply := by
  have hkeeps : Keeps inferWatch ⊥ (settleType c e t) fun _ => ⊤ := by
    refine (blaming_keeps requireIdempotent_keeps).bind fun _ => ?_
    refine (known_keeps t).followedBy (fun _ h => h.1.elim) fun t' => ?_
    refine Keeps.ite ?_ (.pure fun _ _ => trivial)
    refine Keeps.bind (A := fun _ => ⊤) (Keeps.get fun _ _ _ => trivial) fun s => ?_
    exact (log_keeps _).bind fun _ => .pure fun _ _ => trivial
  exact hkeeps.grows s

theorem inferExpr_succeeds {defs : List Definition} {e : Expr} {D : Naming} {t : Ty} {s : State}
    (htype : HasType c.registry D env.get? e t) (hD : D.IsMono) (hs : s.Sound)
    (hu : ((inferExpr c env e).outcome s).2.supply.Unwrapped) (hwhole : c.registry.isWhole = true)
    (henv : closedEnv env s.supply.next) (hnormal : e.isNormal defs = true)
    (hcore : e.isCore c.registry (knows env) = true)
    (horder : e.isFirstOrder c.registry (takes env) [] = true) :
    ∃ u s', (inferExpr c env e).Returns s u s' := by
  have he : e ≠ .blank := by
    rintro rfl
    cases hnormal
  rw [outcome_inferExpr c env he] at hu
  have hprepared : prepared c env s.reset.supply.next := prepared_of_isClosed hwhole henv.1 _
  have hu₁ : ((infer c env e).outcome s.reset).2.supply.Unwrapped :=
    hu.of_le (Succeeds.supply_le_bind (w := inferView) (settleType_grows c e) s.reset)
  have hadmits : s.reset.Admits .var D :=
    ⟨fun _ => rfl, hD, Valuation.solves_empty _, fun name id hid => by cases hid⟩
  have htype : HasType c.registry D (env.under .var) e t := by
    rw [under_of_isClosed henv.1]
    exact htype
  obtain ⟨u, s₁, hinfer⟩ := infer_succeeds henv.1 hnormal hcore horder s.reset hs.reset hu₁
    hprepared .var D t hadmits htype
  rw [hinfer] at hu₁
  obtain ⟨hs₁, -, -⟩ := (infer_keeps c env e).of_returns hinfer hu₁ hs.reset
    ⟨prepared_ready hprepared, Expr.isWhole_of_isCore hcore⟩
  have hs₁ : s₁.Sound := hs₁
  obtain ⟨lines, hsettle⟩ :=
    outcome_settleType c e u (hs₁.subst.1.isIdempotent hs₁.subst.2.monoRange)
  refine ⟨s₁.subst.apply u, { s₁ with log := lines }, ?_⟩
  rw [Attempt.Returns, outcome_inferExpr c env he]
  exact Attempt.returns_bind_iff.2 ⟨u, s₁, hinfer, hsettle⟩

end Inference

end Formulary
