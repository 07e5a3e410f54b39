import Formulary.Proofs.Readings
import Formulary.Proofs.Retyping

namespace Formulary

namespace Ty

theorem arity_of_arity?_eq_some {t : Ty} {n : Nat} (h : Inference.arity? t = some n) :
    t.arity = n := by
  cases t with
  | var => cases h
  | _ => exact Option.some.inj h

theorem arity_of_arity?_eq_none {t : Ty} (h : Inference.arity? t = none) : t.arity = 0 := by
  cases t with
  | var => rfl
  | _ => cases h

theorem arity_bind_eq_zero {t : Ty} (h : Inference.arity? t = some 0) (θ : Valuation) :
    (t.bind θ).arity = 0 := by
  cases t with
  | var => cases h
  | fn => cases h
  | _ => rfl

end Ty

theorem HasCases.exists_fits {r : Registry} {D Γ : Naming} {scrutinee t : Ty}
    {cases : List (Pattern × Expr)} (h : HasCases r D Γ scrutinee cases t) {p : Pattern}
    (hp : p ∈ cases.map (·.1)) : ∃ B, p.Fits r.data .empty scrutinee B := by
  induction cases with
  | nil => exact absurd hp List.not_mem_nil
  | cons first rest ih =>
      cases h with
      | cons hfits _ hrest =>
          rcases List.mem_cons.1 hp with rfl | hp
          · exact ⟨_, hfits⟩
          · exact ih hrest hp

namespace Inference

variable {c : Context} {e : Expr} {ρ : Type} {pins : Pinning} {Φ : ρ → Naming → Prop}
  {R R' : Valuation → ρ} {P P' : Upward}

theorem known_advances (t : Ty) : Advances (known t) :=
  ⟨known_refines t, (known_keeps t).grows⟩

theorem reviewCases_advances (c : Context) (e : Expr) (t : Ty) (ps : List Pattern) :
    Advances (reviewCases c e t ps) :=
  ⟨(reviewCases_quiet c e t ps).refines, (reviewCases_keeps (P := ⊤) c e t ps).grows⟩

theorem inferCall_advances (c : Context) (env : TypeEnv) (name : String) (args : List Expr)
    (types : List Ty) : Advances (inferCall c env name args types) :=
  ⟨inferCall_refines c env name args types, (inferCall_keeps c env name args types).grows⟩

theorem infer_advances (c : Context) (env : TypeEnv) (e : Expr) : Advances (infer c env e) :=
  ⟨infer_moves (R := State.Refined) c env e, (infer_keeps c env e).grows⟩

theorem inferList_advances (c : Context) (env : TypeEnv) (es : List Expr) :
    Advances (inferList c env es) :=
  ⟨inferList_refines c env es, (inferList_keeps c env es).grows⟩

theorem inferCases_advances (c : Context) (env : TypeEnv) (e : Expr) (scrutinee : Ty)
    (result : Option Ty) (cases : List (Pattern × Expr)) :
    Advances (inferCases c env e scrutinee result cases) :=
  ⟨inferCases_refines c env e scrutinee result cases,
    (inferCases_keeps c env e scrutinee result cases).grows⟩

theorem blaming_unify_advances (c : Context) (e : Expr) (a b : Ty) :
    Advances (blaming e (unify c a b)) :=
  ⟨blaming_moves (R := State.Refined) (unify_moves c a b), (blaming_keeps (unify_keeps c a b)).grows⟩

theorem bindPattern_succeeds (c : Context) (e : Expr) (p : Pattern) (scrutinee : Ty) :
    Succeeds inferView (Known (c.data.isWhole = true) ⊓ scrutinee.inScope)
      (bindPattern c e p scrutinee) fun θ _ B => p.Fits c.data .empty (scrutinee.bind θ) B := by
  intro s hs hu hpre θ D B hθ hfits
  have hs : s.Sound := hs
  have hsubst : θ.Solves s.subst := hθ.subst
  rw [← hsubst.bind_apply hpre.2.1] at hfits
  have hsupply : ((bindPattern c e p scrutinee).outcome s).2.supply =
      (Attempt.outcome (p.check c.data (s.subst.apply scrutinee)) s.supply).2 := by
    rw [outcome_bindPattern]
    rcases Attempt.outcome (p.check c.data (s.subst.apply scrutinee)) s.supply with ⟨_ | _, _⟩ <;> rfl
  obtain ⟨typing, u, hcheck⟩ := Pattern.check_succeeds (hsupply ▸ hu)
    (Subst.within_apply hs.subst.2 hpre.2) hθ.mono hfits
  refine ⟨typing.bindings, State.refine { s with supply := u } typing.subst, ?_⟩
  rw [Attempt.Returns, outcome_bindPattern, hcheck]

theorem readsBelow_under {bindings : TypeEnv} {n : Int} (h : monoEnv bindings n) :
    readsBelow (fun θ => bindings.under θ) n := fun _ _ hagree =>
  TypeEnv.under_congr fun name t ht =>
    hagree.bind_eq (h (name, t) ((SortedMap.get?_eq_some_iff _ _ _).1 ht))

theorem Matched.blaming {α β : Type} {A : α → Upward} {read : α → Valuation → β}
    {L : ρ → Naming → β → Prop} {m m' : Infer α} (h : Matched P P' R R' m m' A read L) (e : Expr) :
    Matched P P' R R' (blaming e m) (blaming e m') A read L :=
  ⟨blaming_finds h.finds, blaming_finds h.finds', h.reads⟩

theorem Follows.blaming {α : Type} {m m' : Infer α} (h : Follows pins Φ P P' R R' m m') (e : Expr) :
    Follows pins Φ P P' R R' (blaming e m) (blaming e m') := by
  intro s s' a t hlinked hrun hu hu' hpre hpre' hopen
  rw [supply_outcome_blaming] at hu'
  obtain ⟨a', t', hrun'⟩ := h s s' a t hlinked (returns_blaming.1 hrun) hu hu' hpre hpre' hopen
  exact ⟨a', t', returns_blaming.2 hrun'⟩

section

variable {a a' b b' t t' : Ty} {S T : ρ → Ty}

theorem unify_matched (ha : ∀ θ, a.bind θ = S (R θ)) (ha' : ∀ θ, a'.bind θ = S (R' θ))
    (hb : ∀ θ, b.bind θ = T (R θ)) (hb' : ∀ θ, b'.bind θ = T (R' θ)) :
    Matched (a.inScope ⊓ b.inScope) (a'.inScope ⊓ b'.inScope) R R' (unify c a b) (unify c a' b')
      (fun _ => ⊤) (fun _ _ => ()) fun r _ _ => S r = T r where
  finds := by simpa only [ha, hb] using unify_finds c a b
  finds' := by simpa only [ha', hb'] using unify_finds c a' b'
  reads _ _ _ _ _ _ := rfl

theorem unify_follows (ha : ∀ θ, a.bind θ = S (R θ)) (ha' : ∀ θ, a'.bind θ = S (R' θ))
    (hb : ∀ θ, b.bind θ = T (R θ)) (hb' : ∀ θ, b'.bind θ = T (R' θ)) :
    Follows pins Φ (a.inScope ⊓ b.inScope) (a'.inScope ⊓ b'.inScope) R R' (unify c a b)
      (unify c a' b') := by
  refine .of_succeeds (L := fun r _ _ => S r = T r) (unify_matched ha ha' hb hb').finds ?_
  simpa only [ha', hb'] using unify_succeeds c a' b'

theorem bindPattern_matched (p : Pattern) (ht : ∀ θ, t.bind θ = S (R θ))
    (ht' : ∀ θ, t'.bind θ = S (R' θ)) :
    Matched (Known (c.data.isWhole = true) ⊓ t.inScope) (Known (c.data.isWhole = true) ⊓ t'.inScope)
      R R' (bindPattern c e p t) (bindPattern c e p t') (bindsVars p)
      (fun bindings θ => bindings.under θ) fun r _ B => p.Fits c.data .empty (S r) B where
  finds := by simpa only [ht] using bindPattern_finds c e p t
  finds' := by simpa only [ht'] using bindPattern_finds c e p t'
  reads _ _ h := readsBelow_under h.1

theorem bindPattern_follows (p : Pattern) (ht : ∀ θ, t.bind θ = S (R θ))
    (ht' : ∀ θ, t'.bind θ = S (R' θ)) :
    Follows pins Φ (Known (c.data.isWhole = true) ⊓ t.inScope)
      (Known (c.data.isWhole = true) ⊓ t'.inScope) R R' (bindPattern c e p t)
      (bindPattern c e p t') := by
  refine .of_succeeds (L := fun r _ B => p.Fits c.data .empty (S r) B)
    (bindPattern_matched p ht ht').finds ?_
  simpa only [ht'] using bindPattern_succeeds c e p t'

end

section

variable {name : String} {types types' : List Ty} {T : ρ → List Ty}

theorem inferConstruction_follows {args args' : List (Expr × Ty)}
    (hplain : c.data.isPlain name = true) (hT : ∀ θ, args.map (·.2.bind θ) = T (R θ))
    (hT' : ∀ θ, args'.map (·.2.bind θ) = T (R' θ)) :
    Follows pins Φ (Known (c.data.isWhole = true) ⊓ argsInScope args)
      (Known (c.data.isWhole = true) ⊓ argsInScope args') R R' (inferConstruction c e name args)
      (inferConstruction c e name args') := by
  refine .of_succeeds (L := fun r _ t => c.data.Builds name (T r) t)
    (by simpa only [hT] using inferConstruction_finds c e name args hplain) ?_
  simpa only [hT'] using inferConstruction_succeeds c e name args' hplain

/-- Where the first of two linked states lets what is called take some number of arguments, the second
does, provided that it leaves open that it takes them at all. -/
theorem Linked.takes {s s' : State} (h : Linked pins Φ s s' R R') (hopen : s.LeavesOpen pins.ids)
    {fn fn' : Ty} {W : ρ → Ty} (hfn : fn.inScope s.supply.next) (hfn' : fn'.inScope s'.supply.next)
    (hread : ∀ θ, fn.bind θ = W (R θ)) (hread' : ∀ θ, fn'.bind θ = W (R' θ)) {k : Nat}
    (htakes : ∀ n, arity? (s.subst.apply fn) = some n → n = k) {θ : Valuation} {D : Naming}
    (hθ : s'.Admits θ D) (hle : k ≤ (fn'.bind θ).arity) {n : Nat}
    (hn : arity? (s'.subst.apply fn') = some n) : n = k := by
  have hsame := h.arity_eq hopen hfn hfn' hread hread'
  rw [Ty.arity_of_arity?_eq_some hn] at hsame
  cases hfirst : arity? (s.subst.apply fn) with
  | some m =>
      rw [← hsame, Ty.arity_of_arity?_eq_some hfirst]
      exact htakes m hfirst
  | none =>
      -- nothing is known of the first, so the second takes no arguments
      rw [Ty.arity_of_arity?_eq_none hfirst] at hsame
      subst hsame
      have hnone := Ty.arity_bind_eq_zero hn θ
      rw [hθ.subst.bind_apply hfn'.1] at hnone
      omega

theorem applyTo_advances (c : Context) (e : Expr) (requirer : Requirer) (fn : Ty) (args : List Ty) :
    Advances (applyTo c e requirer fn args) where
  refines := by
    have hfresh : Refines freshVar := (fresh_moves _).bind (R := State.Refined) fun _ => .pure _
    exact hfresh.bind fun result =>
      Refines.bind (unifyFor_moves (R := State.Refined) c requirer e fn _) fun _ => known_refines result
  grows := (applyTo_finds c e requirer fn args).grows

theorem inferApplication_follows {t t' : Ty} {S : ρ → Ty} (ht : ∀ θ, t.bind θ = S (R θ))
    (ht' : ∀ θ, t'.bind θ = S (R' θ)) (hT : ∀ θ, types.map (·.bind θ) = T (R θ))
    (hT' : ∀ θ, types'.map (·.bind θ) = T (R' θ)) (hlength : types'.length = types.length) :
    Follows pins Φ (t.fixedBelow ⊓ Every Ty.inScope types) (t'.fixedBelow ⊓ Every Ty.inScope types')
      R R' (inferApplication c e name t types) (inferApplication c e name t' types') := by
  intro s s' u v hlinked hrun hu hu' hpre hpre' hopen
  obtain ⟨fn, s₁, hfn⟩ := returns_instantiate t s
  obtain ⟨fn', s₁', hfn'⟩ := returns_instantiate t' s'
  have hmatched : Matched t.fixedBelow t'.fixedBelow R R' (instantiate t) (instantiate t') Ty.inScope
      (fun u θ => u.bind θ) fun r _ u => (S r).Instance u :=
    ⟨by simpa only [ht] using instantiate_finds t, by simpa only [ht'] using instantiate_finds t',
      fun u n hscope θ θ' hagree => hagree.bind_eq hscope⟩
  -- the first call is not refused for its arguments, and is an application
  rcases inferApplication_cases c e name types hfn with ⟨_, -, -, s₂, hrefused, -⟩ | ⟨htakes, happly⟩
  · rw [Attempt.Returns, hrefused] at hrun
    cases hrun
  rw [Attempt.Returns, happly] at hrun
  have hadvances := applyTo_advances c e (.function name) fn types
  have hle := hadvances.grows s₁
  have hrefined := hadvances.refines s₁
  rw [hrun] at hle hrefined
  have hu₁ : s₁.supply.Unwrapped := hu.of_le hle
  obtain ⟨hs₁, hscope, hnext⟩ := (instantiate_finds t).of_returns hfn hu₁ hlinked.sound hpre.1
  have hs₁ : s₁.Sound := hs₁
  have hargs : (fn.inScope ⊓ Every Ty.inScope types) s₁.supply.next :=
    ⟨hscope, (Every Ty.inScope types).mono hnext hpre.2⟩
  obtain ⟨hv, -, -⟩ := (applyTo_finds c e _ fn types).of_returns hrun hu hs₁ hargs
  -- some reading leaves the variables of the pinning open in the end
  obtain ⟨θ, D, hθ, hpins, -⟩ := hopen.exists_admits hv
  obtain ⟨hθ₁, hmono, hcurry⟩ :=
    ((applyTo_finds c e _ fn types).finds s₁ u v hrun hs₁ hu hargs).sound θ D hθ
  have hfollow : ∀ hu₁' : s₁'.supply.Unwrapped, ∃ hscope' : fn'.inScope s₁'.supply.next,
      (∀ n, arity? (s₁'.subst.apply fn') = some n → n = types'.length) ∧ s₁'.Sound ∧
        Every Ty.inScope types' s₁'.supply.next ∧ ∃ θ', s₁'.Admits θ' D ∧
          fn'.bind θ' = Ty.curry (types'.map (·.bind θ')) (u.bind θ) := by
    intro hu₁'
    obtain ⟨hs₁', hscope', hnext'⟩ :=
      (instantiate_finds t').of_returns hfn' hu₁' hlinked.sound' hpre'.1
    have hstep := hlinked.step hmatched hfn hfn' hu₁ hu₁' hpre.1 hpre'.1
    obtain ⟨θ', hθ', hsame⟩ := (hstep.same D _).1 ⟨θ, hθ₁, hpins, rfl⟩
    obtain ⟨hR, hbind⟩ := Prod.mk.inj hsame
    have hcurry' : fn'.bind θ' = Ty.curry (types'.map (·.bind θ')) (u.bind θ) := by
      rw [hbind, hcurry, hT', hR, hT]
    refine ⟨hscope', fun n hn => ?_, hs₁', (Every Ty.inScope types').mono hnext' hpre'.2, θ', hθ',
      hcurry'⟩
    refine hstep.takes (hopen.of_refined hs₁ hrefined) (W := Prod.snd) hscope hscope' (fun _ => rfl)
      (fun _ => rfl) (hlength ▸ htakes) hθ' ?_ hn
    rw [hcurry', Ty.arity_curry, List.length_map]
    exact Nat.le_add_right ..
  rcases inferApplication_cases c e name types' hfn' with
    ⟨n, hn, hne, s₂, hrefused, hsupply⟩ | ⟨-, happly'⟩
  · rw [hrefused] at hu'
    obtain ⟨-, htakes', -⟩ := hfollow (hsupply ▸ hu')
    exact absurd (htakes' n hn) hne
  · rw [happly'] at hu'
    obtain ⟨hscope', -, hs₁', htypes', θ', hθ', hcurry'⟩ :=
      hfollow (hu'.of_le ((applyTo_advances c e _ fn' types').grows s₁'))
    obtain ⟨u', v', hrun'⟩ := applyTo_succeeds c e _ fn' types' s₁' hs₁' hu' ⟨hscope', htypes'⟩ θ' D
      _ hθ' ⟨hmono, hcurry'⟩
    exact ⟨u', v', happly'.trans hrun'⟩

end

section

variable {env env' : TypeEnv} {E : ρ → Naming}

theorem isSome_get? (hknows : knows env' = knows env) {name : String} {t : Ty}
    (h : env.get? name = some t) : ∃ t', env'.get? name = some t' := by
  have hname := congrFun hknows name
  rw [knows, knows, h] at hname
  exact Option.isSome_iff_exists.1 hname

theorem inferName_follows (hknows : knows env' = knows env) (hE : ∀ θ, env.under θ = E (R θ))
    (hE' : ∀ θ, env'.under θ = E (R' θ)) {name : String}
    (hcore : (Expr.object name).isCore c.registry (knows env) = true) :
    Follows pins Φ (prepared c env) (prepared c env') R R' (inferName c env name)
      (inferName c env' name) := by
  have hfinds : Finds inferView (prepared c env) (inferName c env name) Ty.inScope
      (fun t θ => t.bind θ) fun θ D t => HasType c.registry D (E (R θ)) (.object name) t := by
    simpa only [hE] using inferName_finds c env name hcore
  refine .of_succeeds (L := fun r D t => HasType c.registry D (E r) (.object name) t) hfinds ?_
  rw [← hknows] at hcore
  simpa only [hE'] using inferName_succeeds hcore

theorem inferCall_follows {name : String} {args : List Expr} {types types' : List Ty}
    {T : ρ → List Ty} (hknows : knows env' = knows env) (hE : ∀ θ, env.under θ = E (R θ))
    (hE' : ∀ θ, env'.under θ = E (R' θ)) (hT : ∀ θ, types.map (·.bind θ) = T (R θ))
    (hT' : ∀ θ, types'.map (·.bind θ) = T (R' θ)) (hlength : types.length = args.length)
    (hlength' : types'.length = args.length)
    (hcore : (if (c.data.variant? name).isSome then c.data.isPlain name else knows env name) = true) :
    Follows pins Φ (prepared c env ⊓ Every Ty.inScope types) (prepared c env' ⊓ Every Ty.inScope types')
      R R' (inferCall c env name args types) (inferCall c env' name args types') := by
  unfold inferCall
  by_cases hvariant : (c.data.variant? name).isSome = true
  · rw [if_pos hvariant] at hcore
    rw [if_pos hvariant, if_pos hvariant]
    refine (inferConstruction_follows hcore (fun θ => (map_zip_bind hlength θ).trans (hT θ)) fun θ =>
      (map_zip_bind hlength' θ).trans (hT' θ)).of_pre (fun n h => ?_) fun n h => ?_
    · exact ⟨Registry.isWhole_data h.1.1, fun a ha => h.2 a.2 (List.of_mem_zip ha).2⟩
    · exact ⟨Registry.isWhole_data h.1.1, fun a ha => h.2 a.2 (List.of_mem_zip ha).2⟩
  · rw [if_neg hvariant] at hcore
    rw [if_neg hvariant, if_neg hvariant]
    obtain ⟨t, ht⟩ := Option.isSome_iff_exists.1 hcore
    obtain ⟨t', ht'⟩ := isSome_get? hknows ht
    have hscheme : ∀ θ, t.bind θ = (E (R θ) name).getD .blank := fun θ => by
      rw [← hE, TypeEnv.under, ht, Option.map_some, Option.getD_some]
    have hscheme' : ∀ θ, t'.bind θ = (E (R' θ) name).getD .blank := fun θ => by
      rw [← hE', TypeEnv.under, ht', Option.map_some, Option.getD_some]
    rw [ht, ht']
    exact (inferApplication_follows (S := fun r => (E r name).getD .blank) hscheme hscheme' hT hT'
      (hlength'.trans hlength.symm)).of_pre (fun n h => ⟨h.1.2 name t ht, h.2⟩)
      fun n h => ⟨h.1.2 name t' ht', h.2⟩

end

theorem returns_forM_warn (f : Nat → Fault) (l : List Nat) (s : State) :
    ∃ ws, Attempt.Returns (l.forM fun i => warn (f i)) s () { s with warnings := ws } := by
  induction l generalizing s with
  | nil => exact ⟨s.warnings, rfl⟩
  | cons i l ih =>
      obtain ⟨ws, hrun⟩ := ih { s with warnings := s.warnings ++ [f i] }
      exact ⟨ws, Attempt.returns_bind_iff.2 ⟨(), _, rfl, hrun⟩⟩

theorem outcome_reviewCases {t : Ty} {ps : List Pattern} {s : State} {names : List String}
    {u : Supply} (hmissing : (Pattern.missing c.data ps t).run s.supply = (names, u)) :
    ((reviewCases c e t ps).outcome s).2.supply = u ∧
      ((c.strict = true → names = []) → ∃ s', (reviewCases c e t ps).Returns s () s') := by
  have hfresh : (fresh (Pattern.missing c.data ps t : StateM Supply (List String))).Returns s names
      { s with supply := u } := by
    rw [Attempt.Returns, outcome_fresh, Attempt.outcome_liftState, hmissing]
  obtain ⟨ws, hrest⟩ := returns_forM_warn (fun i => .unreachable (ps[i]?.getD .wildcard) i)
    (Pattern.unreachable ps) { s with supply := u }
  obtain ⟨ws', hwarned⟩ := returns_forM_warn
    (fun i => .unreachable (ps[i]?.getD .wildcard) i) (Pattern.unreachable ps)
    { s with supply := u, warnings := s.warnings ++ [.nonExhaustive t names] }
  unfold Attempt.Returns at hrest hwarned
  rw [Attempt.Returns] at hfresh
  unfold reviewCases
  simp only [Attempt.Returns, Attempt.outcome_bind, hfresh]
  cases names with
  | nil => exact ⟨congrArg (·.2.supply) hrest, fun _ => ⟨_, hrest⟩⟩
  | cons name names =>
      cases hstrict : c.strict with
      | true => exact ⟨rfl, fun h => absurd (h rfl) (List.cons_ne_nil _ _)⟩
      | false => exact ⟨congrArg (·.2.supply) hwarned, fun _ => ⟨_, hwarned⟩⟩

theorem State.Sound.admits_image {s : State} (hs : s.Sound) : s.Admits s.subst.image s.naming where
  mono := hs.subst.2.monoRange
  naming name t ht := by
    obtain ⟨id, -, rfl⟩ := Option.map_eq_some_iff.1 ht
    exact hs.subst.2.monoRange id
  subst := hs.subst.1.bind_image
  free name id hid := by rw [State.naming, hid, Option.map_some]

theorem reviewCases_follows {t t' : Ty} {S : ρ → Ty} {ps : List Pattern} (hsome : ps ≠ [])
    (ht : ∀ θ, t.bind θ = S (R θ)) (ht' : ∀ θ, t'.bind θ = S (R' θ))
    (hΦ : ∀ r D, Φ r D → ∀ p ∈ ps, ∃ Γ, p.IsFor c.data Γ (S r)) (u u' : Ty) :
    Follows pins Φ (Known (c.data.isWhole = true) ⊓ t.inScope)
      (Known (c.data.isWhole = true) ⊓ t'.inScope) R R'
      (do
        reviewCases c e (← known t) ps
        known u)
      (do
        reviewCases c e (← known t') ps
        known u') := by
  intro s s' a v hlinked hrun hu hu' hpre hpre' hopen
  have hs : s.Sound := hlinked.sound
  have hs' : s'.Sound := hlinked.sound'
  have hknown : (known t).Returns s (s.subst.apply t) s := rfl
  have hknown' : (known t').Returns s' (s'.subst.apply t') s' := rfl
  have hfor : ∀ p ∈ ps, (∃ Γ, p.IsFor c.data Γ (s.subst.apply t)) ∧
      ∃ Γ, p.IsFor c.data Γ (s'.subst.apply t') := by
    intro p hp
    rw [Subst.apply_eq_bind, Subst.apply_eq_bind, ht, ht']
    exact ⟨hΦ _ _ (hlinked.holds _ _ hs.admits_image) p hp,
      hΦ _ _ (hlinked.holds' _ _ hs'.admits_image) p hp⟩
  obtain ⟨_, _, hfirst, hrun⟩ := Attempt.returns_bind_iff.1 hrun
  cases hfirst
  obtain ⟨_, s₁, hreview, hrun⟩ := Attempt.returns_bind_iff.1 hrun
  cases hrun
  cases hmissing' : (Pattern.missing c.data ps (s'.subst.apply t')).run s'.supply with
  | mk names w' =>
      obtain ⟨hsupply, hreturns⟩ := outcome_reviewCases (e := e) hmissing'
      have hw' : w'.Unwrapped := by
        refine hu'.of_le ?_
        rw [Attempt.outcome_bind, hknown', ← hsupply]
        exact Succeeds.supply_le_bind (w := inferView) (fun _ => (known_advances u').grows) s'
      obtain ⟨s₁', hreview'⟩ := hreturns fun hstrict => by
        obtain ⟨w, hmissing, hle⟩ := missing_of_reviewCases hstrict hreview
        exact Pattern.missing_retyped hpre.1 hsome hfor (Subst.within_apply hs.subst.2 hpre.2)
          (Subst.within_apply hs'.subst.2 hpre'.2) hmissing hmissing' (hu.of_le hle) hw'
      exact ⟨_, s₁', Attempt.returns_bind_iff.2 ⟨_, s', hknown', Attempt.returns_bind_iff.2
        ⟨_, s₁', hreview', rfl⟩⟩⟩

theorem readsBelow_bind {t : Ty} {n : Int} (h : t.inScope n) : readsBelow (fun θ => t.bind θ) n :=
  fun _ _ hagree => hagree.bind_eq h

section

variable {env env' : TypeEnv} {E : ρ → Naming}

theorem infer_matched (hknows : knows env' = knows env) (hE : ∀ θ, env.under θ = E (R θ))
    (hE' : ∀ θ, env'.under θ = E (R' θ)) {e : Expr} (hcore : e.isCore c.registry (knows env) = true) :
    Matched (prepared c env) (prepared c env') R R' (infer c env e) (infer c env' e) Ty.inScope
      (fun t θ => t.bind θ) fun r D t => HasType c.registry D (E r) e t where
  finds := by simpa only [hE] using infer_finds c env e hcore
  finds' := by
    rw [← hknows] at hcore
    simpa only [hE'] using infer_finds c env' e hcore
  reads _ _ h := readsBelow_bind h

theorem inferList_matched (hknows : knows env' = knows env) (hE : ∀ θ, env.under θ = E (R θ))
    (hE' : ∀ θ, env'.under θ = E (R' θ)) {es : List Expr}
    (hcore : Expr.isCoreList c.registry (knows env) es = true) :
    Matched (prepared c env) (prepared c env') R R' (inferList c env es) (inferList c env' es)
      (fun ts => Every Ty.inScope ts ⊓ Known (ts.length = es.length))
      (fun ts θ => ts.map (·.bind θ)) fun r D ts => HasTypes c.registry D (E r) es ts where
  finds := by simpa only [hE] using inferList_finds c env es hcore
  finds' := by
    rw [← hknows] at hcore
    simpa only [hE'] using inferList_finds c env' es hcore
  reads _ _ h _ _ hagree := hagree.map_bind_eq h.1

theorem prepared_none {t : Ty} {n : Int} (h : (prepared c env ⊓ t.inScope) n) :
    (prepared c env ⊓ (t.inScope ⊓ Every Ty.inScope (none : Option Ty).toList)) n :=
  ⟨h.1, h.2, every_nil _ n⟩

theorem inferCases_matched {t t' : Ty} {S : ρ → Ty} (hknows : knows env' = knows env)
    (hE : ∀ θ, env.under θ = E (R θ)) (hE' : ∀ θ, env'.under θ = E (R' θ))
    (ht : ∀ θ, t.bind θ = S (R θ)) (ht' : ∀ θ, t'.bind θ = S (R' θ))
    {cases : List (Pattern × Expr)} (hcore : Expr.isCoreCases c.registry (knows env) cases = true)
    (hsome : cases ≠ []) :
    Matched (prepared c env ⊓ t.inScope) (prepared c env' ⊓ t'.inScope) R R'
      (inferCases c env e t none cases) (inferCases c env' e t' none cases)
      (fun r => Every Ty.inScope r.toList ⊓ Known (r.isSome = true)) (fun r θ => r.map (·.bind θ))
      fun r D u => HasResult c.registry D (E r) (S r) cases none u where
  finds := by
    simpa only [hE, ht, Option.map_none] using (inferCases_finds c env e t none cases hcore
      (.inr hsome)).of_pre fun _ => prepared_none
  finds' := by
    rw [← hknows] at hcore
    simpa only [hE', ht', Option.map_none] using (inferCases_finds c env' e t' none cases hcore
      (.inr hsome)).of_pre fun _ => prepared_none
  reads _ _ h _ _ hagree := hagree.option_bind_eq h.1

mutual

theorem infer_follows {ρ : Type} {pins : Pinning} {Φ : ρ → Naming → Prop} {R R' : Valuation → ρ}
    {env env' : TypeEnv} {E : ρ → Naming} (hknows : knows env' = knows env)
    (hE : ∀ θ, env.under θ = E (R θ)) (hE' : ∀ θ, env'.under θ = E (R' θ)) (e : Expr)
    (hcore : e.isCore c.registry (knows env) = true) :
    Follows pins Φ (prepared c env) (prepared c env') R R' (infer c env e) (infer c env' e) := by
  cases e with
  | blank => cases hcore
  | const value => exact .of_returns fun s => ⟨.scalar, s, rfl⟩
  | object name => exact inferName_follows hknows hE hE' hcore
  | operation name args =>
      rw [Expr.isCore, Bool.and_eq_true] at hcore
      rw [infer, infer]
      refine (inferList_follows hknows hE hE' args hcore.2).bind
        (inferList_matched hknows hE hE' hcore.2)
        (fun types => inferCall_advances c env name args types)
        (fun types => inferCall_advances c env' name args types) fun types types' => ?_
      refine .of_known (fun n h => h.2.2) (fun n h => h.2.2) fun hlength hlength' => ?_
      exact (inferCall_follows (E := fun r => E r.1) (T := Prod.snd) hknows hE hE' (fun _ => rfl)
        (fun _ => rfl) hlength hlength' hcore.1).of_pre (fun n h => ⟨h.1, h.2.1⟩)
        fun n h => ⟨h.1, h.2.1⟩
  | matching scrutinee cases =>
      rw [Expr.isCore, Bool.and_eq_true] at hcore
      rw [infer, infer]
      by_cases hempty : cases.isEmpty = true
      · rw [if_pos hempty]
        intro s s' a t _ hrun
        cases hrun
      · rw [if_neg hempty, if_neg hempty]
        have hsome : cases ≠ [] := by simpa using hempty
        have hreview : ∀ (t : Ty) (result : Option Ty), Advances (do
            reviewCases c (.matching scrutinee cases) (← known t) (cases.map (·.1))
            known (result.getD .blank)) := fun t result =>
          (known_advances t).bind fun t' => (reviewCases_advances c _ t' _).bind fun _ =>
            known_advances _
        have hrest : ∀ (env : TypeEnv) (t : Ty), Advances (do
            let result ← inferCases c env (.matching scrutinee cases) t none cases
            reviewCases c (.matching scrutinee cases) (← known t) (cases.map (·.1))
            known (result.getD .blank)) := fun env t =>
          (inferCases_advances c env _ t none cases).bind (hreview t)
        refine (infer_follows hknows hE hE' scrutinee hcore.1).bind
          (infer_matched hknows hE hE' hcore.1) (hrest env) (hrest env') fun t t' => ?_
        have hcases : Follows pins (fun r D => Φ r.1 D ∧ HasType c.registry D (E r.1) scrutinee r.2)
            (prepared c env ⊓ t.inScope) (prepared c env' ⊓ t'.inScope) (fun θ => (R θ, t.bind θ))
            (fun θ => (R' θ, t'.bind θ)) (inferCases c env (.matching scrutinee cases) t none cases)
            (inferCases c env' (.matching scrutinee cases) t' none cases) :=
          (inferCases_follows none none (E := fun r => E r.1) (S := Prod.snd) (U := fun _ => none) hknows
            (fun θ => hE θ) (fun θ => hE' θ) (fun _ => rfl) (fun _ => rfl) (fun _ => rfl) (fun _ => rfl)
            rfl cases hcore.2 (.inr hsome)).of_pre (fun _ => prepared_none) fun _ => prepared_none
        refine hcases.bind (inferCases_matched (E := fun r => E r.1) (S := Prod.snd) hknows
          (fun θ => hE θ) (fun θ => hE' θ) (fun _ => rfl) (fun _ => rfl) hcore.2 hsome) (hreview t)
          (hreview t') fun result result' => ?_
        refine (reviewCases_follows (S := fun r => r.1.2) (by simpa using hsome) (fun _ => rfl)
          (fun _ => rfl) (fun r D h p hp => ?_) _ _).of_pre
          (fun n h => ⟨Registry.isWhole_data h.1.1.1, h.1.2⟩)
          fun n h => ⟨Registry.isWhole_data h.1.1.1, h.1.2⟩
        obtain ⟨u, -, hcases, -⟩ := h.2
        obtain ⟨B, hfits⟩ := hcases.exists_fits hp
        exact ⟨B, hfits.isFor.1⟩

theorem inferList_follows {ρ : Type} {pins : Pinning} {Φ : ρ → Naming → Prop} {R R' : Valuation → ρ}
    {env env' : TypeEnv} {E : ρ → Naming} (hknows : knows env' = knows env)
    (hE : ∀ θ, env.under θ = E (R θ)) (hE' : ∀ θ, env'.under θ = E (R' θ)) (es : List Expr)
    (hcore : Expr.isCoreList c.registry (knows env) es = true) :
    Follows pins Φ (prepared c env) (prepared c env') R R' (inferList c env es)
      (inferList c env' es) := by
  cases es with
  | nil => exact .of_returns fun s => ⟨[], s, rfl⟩
  | cons e es =>
      rw [Expr.isCoreList, Bool.and_eq_true] at hcore
      rw [inferList, inferList]
      have hrest : ∀ env (t : Ty), Advances (do return t :: (← inferList c env es)) := fun env t =>
        (inferList_advances c env es).bind fun ts => .pure _
      refine (infer_follows hknows hE hE' e hcore.1).bind (infer_matched hknows hE hE' hcore.1)
        (hrest env) (hrest env') fun t t' => ?_
      exact Follows.bind_returns ((inferList_follows (E := fun r => E r.1) hknows hE hE' es
        hcore.2).of_pre (fun n h => h.1) fun n h => h.1)
        ((inferList_finds c env es hcore.2).toKeeps.of_pre fun n h => h.1) (fun _ => .pure _)
        (fun _ => .pure _) fun ts s => ⟨_, s, rfl⟩

theorem inferCases_follows {ρ : Type} {pins : Pinning} {Φ : ρ → Naming → Prop} {R R' : Valuation → ρ}
    {env env' : TypeEnv} {E : ρ → Naming} {e : Expr} {t t' : Ty} {S : ρ → Ty}
    (result result' : Option Ty) {U : ρ → Option Ty} (hknows : knows env' = knows env)
    (hE : ∀ θ, env.under θ = E (R θ))
    (hE' : ∀ θ, env'.under θ = E (R' θ)) (ht : ∀ θ, t.bind θ = S (R θ))
    (ht' : ∀ θ, t'.bind θ = S (R' θ)) (hU : ∀ θ, result.map (·.bind θ) = U (R θ))
    (hU' : ∀ θ, result'.map (·.bind θ) = U (R' θ)) (hsame : result'.isSome = result.isSome)
    (cases : List (Pattern × Expr)) (hcore : Expr.isCoreCases c.registry (knows env) cases = true)
    (hsome : result.isSome = true ∨ cases ≠ []) :
    Follows pins Φ (prepared c env ⊓ (t.inScope ⊓ Every Ty.inScope result.toList))
      (prepared c env' ⊓ (t'.inScope ⊓ Every Ty.inScope result'.toList)) R R'
      (inferCases c env e t result cases) (inferCases c env' e t' result' cases) := by
  match cases with
  | [] =>
      rw [inferCases, inferCases]
      exact .of_returns fun s => ⟨result', s, rfl⟩
  | (p, body) :: rest =>
      rw [Expr.isCoreCases, Bool.and_eq_true] at hcore
      rw [inferCases, inferCases]
      have hmeet : ∀ (env : TypeEnv) (t : Ty) (result : Option Ty) (u : Ty), Advances (
          match result with
          | none => inferCases c env e t (some u) rest
          | some result => do
            blaming body (unify c result u)
            inferCases c env e t (some result) rest) := by
        intro env t result u
        cases result with
        | none => exact inferCases_advances c env e t _ rest
        | some result =>
            exact (blaming_unify_advances c body result u).bind fun _ =>
              inferCases_advances c env e t _ rest
      refine ((bindPattern_follows p ht ht').of_pre ?_ ?_).bind
        ((bindPattern_matched p ht ht').of_pre ?_ ?_)
        (fun bindings => (infer_advances c _ body).bind (hmeet env t result))
        (fun bindings => (infer_advances c _ body).bind (hmeet env' t' result'))
        fun bindings bindings' => ?_
      iterate 4 exact fun n h => ⟨Registry.isWhole_data h.1.1, h.2.1⟩
      refine .of_known (fun n h => h.2.2) (fun n h => h.2.2) fun hvars hvars' => ?_
      have hextended : knows (env'.extend bindings'.entries) =
          knows (env.extend bindings.entries) := by
        rw [knows_extend hvars, knows_extend hvars', hknows]
      rw [← knows_extend hvars] at hcore
      have hover : ∀ θ, (env.extend bindings.entries).under θ =
          (E (R θ)).over (bindings.under θ) := fun θ => by rw [TypeEnv.under_extend, hE]
      have hover' : ∀ θ, (env'.extend bindings'.entries).under θ =
          (E (R' θ)).over (bindings'.under θ) := fun θ => by rw [TypeEnv.under_extend, hE']
      refine ((infer_follows (E := fun r => (E r.1).over r.2) hextended hover hover' body
        hcore.1).of_pre ?_ ?_).bind ((infer_matched (E := fun r => (E r.1).over r.2) hextended hover
        hover' hcore.1).of_pre ?_ ?_) (hmeet env t result) (hmeet env' t' result') fun u u' => ?_
      iterate 4 exact fun n h => ⟨h.1.1.1, fixedEnv_extend h.1.1.2 h.2.1⟩
      cases result with
      | none =>
          obtain rfl : result' = none := by simpa using hsame
          refine (inferCases_follows (some u) (some u') (E := fun r => E r.1.1) (S := fun r => S r.1.1)
            (U := fun r => some r.2) hknows (fun θ => hE θ) (fun θ => hE' θ) (fun θ => ht θ)
            (fun θ => ht' θ) (fun _ => rfl) (fun _ => rfl) rfl rest
            hcore.2 (.inl rfl)).of_pre (fun n h => ?_) fun n h => ?_
          · exact ⟨h.1.1.1, h.1.1.2.1, every_cons.2 ⟨h.2, every_nil _ n⟩⟩
          · exact ⟨h.1.1.1, h.1.1.2.1, every_cons.2 ⟨h.2, every_nil _ n⟩⟩
      | some result =>
          obtain ⟨result', rfl⟩ := Option.isSome_iff_exists.1 hsame
          have hresult : ∀ θ, result.bind θ = (U (R θ)).getD .blank := fun θ => by
            rw [← hU, Option.map_some, Option.getD_some]
          have hresult' : ∀ θ, result'.bind θ = (U (R' θ)).getD .blank := fun θ => by
            rw [← hU', Option.map_some, Option.getD_some]
          refine (((unify_follows (S := fun r => (U r.1.1).getD .blank) (T := Prod.snd)
            (fun θ => hresult θ) (fun θ => hresult' θ) (fun _ => rfl) fun _ => rfl).blaming
            body).of_pre ?_ ?_).bind (((unify_matched (S := fun r => (U r.1.1).getD .blank)
            (T := Prod.snd) (fun θ => hresult θ) (fun θ => hresult' θ) (fun _ => rfl)
            fun _ => rfl).blaming body).of_pre ?_ ?_)
            (fun _ => inferCases_advances c env e t _ rest)
            (fun _ => inferCases_advances c env' e t' _ rest) fun _ _ => ?_
          iterate 4 exact fun n h => ⟨h.1.1.2.2 _ (by simp), h.2⟩
          refine Follows.of_pre (inferCases_follows (some result) (some result') (E := fun r => E r.1.1.1)
            (S := fun r => S r.1.1.1) (U := fun r => U r.1.1.1) hknows (fun θ => hE θ) (fun θ => hE' θ) (fun θ => ht θ)
            (fun θ => ht' θ) (fun θ => hU θ) (fun θ => hU' θ) rfl rest hcore.2 (.inl rfl))
            (fun n h => ?_) fun n h => ?_
          · exact h.1.1.1
          · exact h.1.1.1

end

end

end Inference

end Formulary
