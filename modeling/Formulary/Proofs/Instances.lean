import Formulary.Proofs.Defining
import Formulary.Proofs.Filling
import Formulary.Proofs.Following

namespace Formulary

namespace Ty

/-- The first arguments of a function type, and what is left of the type. -/
def peel : Nat → Ty → List Ty × Ty
  | n + 1, .fn a b => (a :: (peel n b).1, (peel n b).2)
  | _, t => ([], t)

theorem peel_curry (ts : List Ty) (t : Ty) : (curry ts t).peel ts.length = (ts, t) := by
  induction ts with
  | nil => cases t <;> rfl
  | cons a ts ih =>
      have hcons : curry (a :: ts) t = .fn a (curry ts t) := rfl
      rw [hcons, List.length_cons, peel, ih]

theorem curry_uncurry (t : Ty) : curry t.uncurry.1 t.uncurry.2 = t := by
  induction t using uncurry.induct with
  | case1 a b ih =>
      have hcons : curry (Ty.fn a b).uncurry.1 (Ty.fn a b).uncurry.2 =
          .fn a (curry b.uncurry.1 b.uncurry.2) := rfl
      rw [hcons, ih]
  | case2 t hfn =>
      cases t with
      | fn a b => exact absurd rfl (hfn a b)
      | _ => rfl

theorem peel_bind (t : Ty) (θ : Valuation) : (t.bind θ).peel t.arity =
    (t.uncurry.1.map (·.bind θ), t.uncurry.2.bind θ) := by
  have hcurry : t.bind θ = curry (t.uncurry.1.map (·.bind θ)) (t.uncurry.2.bind θ) := by
    rw [← Inference.bind_curry, curry_uncurry]
  rw [hcurry, arity, ← List.length_map (·.bind θ), peel_curry]

end Ty

theorem TypeEnv.under_extend_zip (env : TypeEnv) (names : List String) (types : List Ty)
    (θ : Valuation) : (env.extend (names.zip types)).under θ =
      (env.under θ).bindAll (names.zip (types.map (·.bind θ))) := by
  induction names generalizing env types with
  | nil => rfl
  | cons name names ih =>
      cases types with
      | nil => rfl
      | cons t types =>
          show (TypeEnv.extend (env.insert name t) (names.zip types)).under θ = _
          rw [ih, TypeEnv.under_insert]
          rfl

namespace Inference

variable {c : Context} {env : TypeEnv} {i i' : RegisteredImplementation} {op : Operation}
  {body : OperationBody} {e : Expr} {s s' t : State}

theorem knows_extend_zip {names : List String} {types : List Ty} (h : types.length = names.length) :
    knows (env.extend (names.zip types)) = fun name => names.contains name || knows env name := by
  funext name
  rw [Bool.eq_iff_iff, knows_extend_iff, List.map_fst_zip (Nat.le_of_eq h.symm), Bool.or_eq_true,
    List.contains_iff_mem]

theorem prepared_extend_zip {names : List String} {types : List Ty} {n : Int}
    (h : prepared c env n) (htypes : Every Ty.inScope types n) :
    prepared c (env.extend (names.zip types)) n := by
  refine ⟨h.1, fun name t ht => ?_⟩
  rcases get?_extend ht with ht | hmem
  · exact h.2 name t ht
  · have hscope := htypes t (List.of_mem_zip hmem).2
    exact ⟨Ty.schemeBelow_of_inScope hscope, .inr hscope⟩

/-- What is left of the check of a body once the types of its parameters and its result are known. -/
def checkAgainst (c : Context) (env : TypeEnv) (result : Ty) (e : Expr) : Infer Unit := do
  let t ← infer c env e
  unify c result t

/-- The types that stand for the parameters of a structure in an implementation. -/
def scopeOf (i : RegisteredImplementation) (types : List Ty) : Scope :=
  (i.interface.params.map (·.name)).zip (types.map some)

/-- The types that an implementation asks for, of the parameters of an operation and its result. -/
def expectedOf (c : Context) (i : RegisteredImplementation) (op : Operation) :
    Infer (List Ty × Ty) := do
  let (types, _) ← annotatedList c [] [] i.decl.args
  let (signature, _) ← annotated c (scopeOf i types) [] op.signature
  return signature.uncurry

theorem checkAgainst_advances (c : Context) (env : TypeEnv) (result : Ty) (e : Expr) :
    Advances (checkAgainst c env result e) :=
  (infer_advances c env e).bind fun t =>
    ⟨unify_moves (R := State.Refined) c result t, (unify_keeps c result t).grows⟩

theorem checkBody_eq (c : Context) (env : TypeEnv) (i : RegisteredImplementation) (op : Operation)
    (body : OperationBody) (e : Expr) : checkBody c env i op body e = (do
      modify State.reset
      let p ← Attempt.ofFaults (expectedOf c i op)
      if p.1.length ≠ body.params.length then
        throw (.fault (.bodyArity body.name i.interface.name i.args))
      Attempt.within (i.interface.name ++ i.args ++ ": operation " ++ body.name) <|
        Attempt.ofFaults (checkAgainst c (env.extend (body.params.zip p.1)) p.2 e)) := rfl

theorem returns_expectedOf_iff {p : List Ty × Ty} :
    (expectedOf c i op).Returns s p s' ↔ ∃ types names s₁ signature vars,
      (annotatedList c [] [] i.decl.args).Returns s (types, names) s₁ ∧
        (annotated c (scopeOf i types) [] op.signature).Returns s₁ (signature, vars) s' ∧
        p = signature.uncurry := by
  constructor
  · intro h
    obtain ⟨⟨types, names⟩, s₁, htypes, h⟩ := Attempt.returns_bind_iff.1 h
    obtain ⟨⟨signature, vars⟩, s₂, hsignature, h⟩ := Attempt.returns_bind_iff.1 h
    cases h
    exact ⟨types, names, s₁, signature, vars, htypes, hsignature, rfl⟩
  · rintro ⟨types, names, s₁, signature, vars, htypes, hsignature, rfl⟩
    exact Attempt.returns_bind_iff.2 ⟨_, s₁, htypes,
      Attempt.returns_bind_iff.2 ⟨_, s', hsignature, rfl⟩⟩

theorem returns_checkBody_iff : (checkBody c env i op body e).Returns s () t ↔
    ∃ p s₂, (expectedOf c i op).Returns s.reset p s₂ ∧ p.1.length = body.params.length ∧
      (checkAgainst c (env.extend (body.params.zip p.1)) p.2 e).Returns s₂ () t := by
  rw [checkBody_eq]
  constructor
  · intro h
    obtain ⟨_, s₁, hreset, h⟩ := Attempt.returns_bind_iff.1 h
    cases hreset
    obtain ⟨p, s₂, hexpected, h⟩ := Attempt.returns_bind_iff.1 h
    by_cases hlength : p.1.length = body.params.length
    · rw [if_neg (not_not.2 hlength)] at h
      exact ⟨p, s₂, Attempt.returns_adapt.1 hexpected, hlength,
        Attempt.returns_adapt.1 (Attempt.returns_adapt.1 h)⟩
    · rw [if_pos hlength] at h
      cases h
  · rintro ⟨p, s₂, hexpected, hlength, h⟩
    refine Attempt.returns_bind_iff.2 ⟨_, s.reset, rfl, Attempt.returns_bind_iff.2
      ⟨p, s₂, Attempt.returns_adapt.2 hexpected, ?_⟩⟩
    rw [if_neg (not_not.2 hlength)]
    exact Attempt.returns_adapt.2 (Attempt.returns_adapt.2 h)

theorem state_checkBody (c : Context) (env : TypeEnv) (i : RegisteredImplementation) (op : Operation)
    (body : OperationBody) (e : Expr) (s : State) : ((checkBody c env i op body e).outcome s).2 =
      match (expectedOf c i op).outcome s.reset with
      | (.error _, s₂) => s₂
      | (.ok p, s₂) =>
        if p.1.length = body.params.length then
          ((checkAgainst c (env.extend (body.params.zip p.1)) p.2 e).outcome s₂).2
        else s₂ := by
  rw [checkBody_eq, Attempt.outcome_bind, Attempt.outcome_modify]
  dsimp only
  rw [Attempt.outcome_bind, Attempt.ofFaults, Attempt.outcome_adapt]
  rcases (expectedOf c i op).outcome s.reset with ⟨f | p, s₂⟩
  · rfl
  · dsimp only [Except.mapError]
    by_cases hlength : p.1.length = body.params.length
    · rw [if_neg (not_not.2 hlength), if_pos hlength, Attempt.within, Attempt.ofFaults,
        Attempt.outcome_adapt, Attempt.outcome_adapt]
    · rw [if_pos hlength, if_neg hlength]
      rfl

theorem supply_expectedOf_le (c : Context) (env : TypeEnv) (i : RegisteredImplementation)
    (op : Operation) (body : OperationBody) (e : Expr) (s : State) :
    ((expectedOf c i op).outcome s.reset).2.supply ≤
      ((checkBody c env i op body e).outcome s).2.supply := by
  rw [state_checkBody]
  rcases (expectedOf c i op).outcome s.reset with ⟨f | p, s₂⟩
  · exact le_rfl
  · dsimp only
    split
    · exact (checkAgainst_advances c _ p.2 e).grows s₂
    · exact le_rfl

theorem supply_le_expectedOf (c : Context) (i : RegisteredImplementation) (op : Operation) (s : State) :
    s.supply ≤ ((expectedOf c i op).outcome s).2.supply := by
  refine ((annotatedList_keeps c [] [] i.decl.args).grows s).trans
    (Succeeds.supply_le_bind (w := inferView) (fun r s₁ => ?_) s)
  exact ((annotated_finds c (scopeOf i r.1) op.signature).grows s₁).trans
    (Succeeds.supply_le_bind (w := inferView) (fun _ _ => le_rfl) s₁)

theorem supply_annotated_le {types : List Ty} {names : Annotations} {s₁ : State}
    (h : (annotatedList c [] [] i.decl.args).Returns s (types, names) s₁) :
    ((annotated c (scopeOf i types) [] op.signature).outcome s₁).2.supply ≤
      ((expectedOf c i op).outcome s).2.supply := by
  rw [expectedOf, Attempt.outcome_bind, h]
  exact Succeeds.supply_le_bind (w := inferView) (m := annotated c (scopeOf i types) [] op.signature)
    (f := fun r => pure r.1.uncurry) (fun _ _ => le_rfl) s₁

theorem checkAgainst_follows {ρ : Type} {pins : Pinning} {Φ : ρ → Naming → Prop}
    {R R' : Valuation → ρ} {env' : TypeEnv} {E : ρ → Naming} {result result' : Ty} {S : ρ → Ty}
    (hknows : knows env' = knows env) (hE : ∀ θ, env.under θ = E (R θ))
    (hE' : ∀ θ, env'.under θ = E (R' θ)) (hS : ∀ θ, result.bind θ = S (R θ))
    (hS' : ∀ θ, result'.bind θ = S (R' θ)) (hcore : e.isCore c.registry (knows env) = true) :
    Follows pins Φ (prepared c env ⊓ result.inScope) (prepared c env' ⊓ result'.inScope) R R'
      (checkAgainst c env result e) (checkAgainst c env' result' e) := by
  have hunify : ∀ result t, Advances (unify c result t) := fun result t =>
    ⟨unify_moves (R := State.Refined) c result t, (unify_keeps c result t).grows⟩
  refine ((infer_follows hknows hE hE' e hcore).of_pre ?_ ?_).bind
    ((infer_matched hknows hE hE' hcore).of_pre ?_ ?_) (hunify result) (hunify result') fun t t' => ?_
  iterate 4 exact fun n h => h.1
  exact (unify_follows (S := fun r => S r.1) (T := Prod.snd) (fun θ => hS θ) (fun θ => hS' θ)
    (fun _ => rfl) fun _ => rfl).of_pre (fun n h => ⟨h.1.2, h.2⟩) fun n h => ⟨h.1.2, h.2⟩

theorem scopeOf_bind (i : RegisteredImplementation) (types : List Ty) (θ : Valuation) :
    (scopeOf i types).bind θ = scopeOf i (types.map (·.bind θ)) := by
  have hsome : (types.map (·.bind θ)).map some = (types.map some).map (Option.map (·.bind θ)) := by
    rw [List.map_map, List.map_map]
    rfl
  rw [scopeOf, scopeOf, hsome]
  exact List.zip_map_right.symm

theorem scopeOf_inScope {types : List Ty} {n : Int} (h : Every Ty.inScope types n) :
    (scopeOf i types).inScope n := by
  intro name t hmem
  obtain ⟨u, hu, heq⟩ := List.mem_map.1 (List.of_mem_zip hmem).2
  cases heq
  exact h t hu

theorem annotated_matched (types types' : List Ty) {signature : TypeExpr}
    (hinterface : i'.interface = i.interface) :
    Matched (Known (signature.isWhole = true) ⊓ (scopeOf i types).inScope)
      (Known (signature.isWhole = true) ⊓ (scopeOf i' types').inScope)
      (fun θ => types.map (·.bind θ)) (fun θ => types'.map (·.bind θ))
      (annotated c (scopeOf i types) [] signature) (annotated c (scopeOf i' types') [] signature)
      (fun r => r.1.inScope) (fun r θ => r.1.bind θ)
      fun ts _ t => t.isMono = true ∧ ∃ D : Naming, c.data.denote (scopeOf i ts) D signature = some t where
  finds := by simpa only [scopeOf_bind] using annotated_finds c (scopeOf i types) signature
  finds' := by
    have hsame : ∀ ts, scopeOf i' ts = scopeOf i ts := fun ts => by rw [scopeOf, scopeOf, hinterface]
    simpa only [scopeOf_bind, hsame] using annotated_finds c (scopeOf i' types') signature
  reads _ _ h := readsBelow_bind h

theorem annotated_follows {pins : Pinning} {Φ : List Ty → Naming → Prop} {types types' : List Ty}
    {signature : TypeExpr} (hinterface : i'.interface = i.interface) :
    Follows pins Φ (Known (signature.isWhole = true) ⊓ (scopeOf i types).inScope)
      (Known (signature.isWhole = true) ⊓ (scopeOf i' types').inScope)
      (fun θ => types.map (·.bind θ)) (fun θ => types'.map (·.bind θ))
      (annotated c (scopeOf i types) [] signature) (annotated c (scopeOf i' types') [] signature) := by
  have hsame : ∀ ts, scopeOf i' ts = scopeOf i ts := fun ts => by rw [scopeOf, scopeOf, hinterface]
  refine .of_succeeds (L := fun ts _ t => t.isMono = true ∧ ∃ D : Naming,
    c.data.denote (scopeOf i ts) D signature = some t)
    (annotated_matched types types' hinterface).finds ?_
  simpa only [scopeOf_bind, hsame] using annotated_succeeds c (scopeOf i' types') signature

theorem exists_expectedOf {σ : String → TypeExpr} {types : List Ty} {names vars : Annotations}
    {signature : Ty} {s₁ s₂ : State} (hσ : c.data.FillsIn σ) (hinterface : i'.interface = i.interface)
    (hargs : i'.decl.args = TypeExpr.fillList c.data σ i.decl.args)
    (hsignature : op.signature.isWhole = true) (hs : s.Sound) (hs' : s'.Sound) (hblank : s.IsBlank)
    (hblank' : s'.IsBlank) (htypes : (annotatedList c [] [] i.decl.args).Returns s (types, names) s₁)
    (hannotated : (annotated c (scopeOf i types) [] op.signature).Returns s₁ (signature, vars) s₂)
    (hu : s₂.supply.Unwrapped) (hu' : ((expectedOf c i' op).outcome s').2.supply.Unwrapped)
    (hopen : s₂.LeavesOpen (names.map (·.2))) :
    ∃ (signature' : Ty) (s₂' : State) (pins : Pinning),
      (expectedOf c i' op).Returns s' signature'.uncurry s₂' ∧ signature'.arity = signature.arity ∧
      signature.inScope s₂.supply.next ∧ signature'.inScope s₂'.supply.next ∧
      (∀ x ∈ pins.ids, x ∈ names.map (·.2)) ∧
      Linked pins (fun _ _ => True) s₂ s₂' (fun θ => signature.bind θ) fun θ => signature'.bind θ := by
  have hgrows := (annotated_finds c (scopeOf i types) op.signature).grows s₁
  rw [hannotated] at hgrows
  have hu₁ : s₁.supply.Unwrapped := hu.of_le hgrows
  obtain ⟨-, hscope, -⟩ := scoped_of_annotatedList htypes hs hu₁
  -- the type arguments
  obtain ⟨types', names', s₁', htypes'⟩ := exists_annotatedList hσ htypes hu₁ s'
  have hgrows' := (annotated_finds c (scopeOf i' types') op.signature).grows s₁'
  have htypesFilled : (annotatedList c [] [] i'.decl.args).Returns s' (types', names') s₁' :=
    hargs ▸ htypes'
  have hle' : ((annotated c (scopeOf i' types') [] op.signature).outcome s₁').2.supply ≤
      ((expectedOf c i' op).outcome s').2.supply := supply_annotated_le htypesFilled
  have hu₁' : s₁'.supply.Unwrapped := hu'.of_le (hgrows'.trans hle')
  obtain ⟨-, hscope', -⟩ := scoped_of_annotatedList htypes' hs' hu₁'
  obtain ⟨pins, hids, hlinked⟩ :=
    linked_of_annotatedList hσ hs hs' hblank hblank' htypes htypes' hu₁ hu₁'
  -- the signature
  have hpre : (Known (op.signature.isWhole = true) ⊓ (scopeOf i types).inScope) s₁.supply.next :=
    ⟨hsignature, scopeOf_inScope hscope⟩
  have hpre' : (Known (op.signature.isWhole = true) ⊓ (scopeOf i' types').inScope) s₁'.supply.next :=
    ⟨hsignature, scopeOf_inScope hscope'⟩
  have hopen := hopen.subset hids
  obtain ⟨⟨signature', vars'⟩, s₂', hannotated'⟩ := annotated_follows hinterface s₁ s₁' _ s₂ hlinked
    hannotated hu (hu'.of_le hle') hpre hpre' hopen
  have hexpected' : (expectedOf c i' op).Returns s' signature'.uncurry s₂' :=
    returns_expectedOf_iff.2 ⟨types', names', s₁', signature', vars', htypesFilled, hannotated', rfl⟩
  rw [hexpected'] at hu'
  obtain ⟨-, hsig, -⟩ := (annotated_finds c (scopeOf i types) op.signature).of_returns hannotated hu
    hlinked.sound hpre
  obtain ⟨-, hsig', -⟩ := (annotated_finds c (scopeOf i' types') op.signature).of_returns hannotated'
    hu' hlinked.sound' hpre'
  have hstep := hlinked.step (annotated_matched types types' hinterface) hannotated hannotated' hu hu' hpre hpre'
  have harity := hstep.arity_eq hopen (W := Prod.snd) hsig hsig' (fun _ => rfl) fun _ => rfl
  have hblank₂ := isBlank_of_annotated (isBlank_of_annotatedList hblank htypes) hannotated
  have hblank₂' := isBlank_of_annotated (isBlank_of_annotatedList hblank' htypes') hannotated'
  rw [hblank₂.apply, hblank₂'.apply] at harity
  exact ⟨signature', s₂', pins, hexpected', harity.symm, hsig, hsig', hids,
    hstep.map Prod.snd fun _ _ _ => trivial⟩

/-- The check of a body leaves the free names of the type arguments open: in the end nothing is known
of their variables, not even that two of them are the same. -/
def LeavesNamesOpen (c : Context) (env : TypeEnv) (i : RegisteredImplementation) (op : Operation)
    (body : OperationBody) (e : Expr) (s : State) : Prop :=
  ∀ types names s₁, (annotatedList c [] [] i.decl.args).Returns s.reset (types, names) s₁ →
    ((checkBody c env i op body e).outcome s).2.LeavesOpen (names.map (·.2))

theorem exists_returns_checkBody {σ : String → TypeExpr} (hσ : c.data.FillsIn σ)
    (hinterface : i'.interface = i.interface)
    (hargs : i'.decl.args = TypeExpr.fillList c.data σ i.decl.args)
    (hwhole : c.registry.isWhole = true) (hsignature : op.signature.isWhole = true)
    (hcore : e.isCore c.registry (fun name => body.params.contains name || knows env name) = true)
    (hs : s.Sound) (hs' : s'.Sound) (henv : closedEnv env s.supply.next)
    (henv' : closedEnv env s'.supply.next) (h : (checkBody c env i op body e).Returns s () t)
    (hu : t.supply.Unwrapped) (hopen : LeavesNamesOpen c env i op body e s)
    (hu' : ((checkBody c env i' op body e).outcome s').2.supply.Unwrapped) :
    ∃ t', (checkBody c env i' op body e).Returns s' () t' := by
  -- the types that are asked for in the first place
  obtain ⟨p, s₂, hexpected, hlength, hcheck⟩ := returns_checkBody_iff.1 h
  obtain ⟨types, names, s₁, signature, vars, htypes, hannotated, rfl⟩ :=
    returns_expectedOf_iff.1 hexpected
  have hadvances := checkAgainst_advances c (env.extend (body.params.zip signature.uncurry.1))
    signature.uncurry.2 e
  have hle := hadvances.grows s₂
  have hrefined := hadvances.refines s₂
  rw [hcheck] at hle hrefined
  have hu₂ : s₂.supply.Unwrapped := hu.of_le hle
  have hgrows := (annotated_finds c (scopeOf i types) op.signature).grows s₁
  rw [hannotated] at hgrows
  have hu₁ : s₁.supply.Unwrapped := hu₂.of_le hgrows
  have hopen : t.LeavesOpen (names.map (·.2)) := by
    have hleft := hopen types names s₁ htypes
    rwa [h] at hleft
  have hu₂' := hu'.of_le (supply_expectedOf_le c env i' op body e s')
  obtain ⟨hs₁, hscope, -⟩ := scoped_of_annotatedList htypes hs.reset hu₁
  obtain ⟨hs₂, -, -⟩ := (annotated_finds c (scopeOf i types) op.signature).of_returns hannotated hu₂ hs₁
    ⟨hsignature, scopeOf_inScope hscope⟩
  obtain ⟨signature', s₂', pins, hexpected', harity, hscoped, hscoped', hids, hlinked⟩ :=
    exists_expectedOf hσ hinterface hargs hsignature hs.reset hs'.reset ⟨rfl, rfl⟩ ⟨rfl, rfl⟩ htypes
      hannotated hu₂ hu₂' (hopen.of_refined hs₂ hrefined)
  have hle₂ := supply_le_expectedOf c i op s.reset
  have hle₂' := supply_le_expectedOf c i' op s'.reset
  rw [hexpected] at hle₂
  rw [hexpected'] at hle₂' hu₂'
  have henv₂ := (closedEnv env).mono (hu₂.next_le_next hle₂) henv
  have henv₂' := (closedEnv env).mono (hu₂'.next_le_next hle₂') henv'
  -- the body is compared with the types of the parameters and the result
  have hlength' : signature'.uncurry.1.length = body.params.length := harity.trans hlength
  have hparams : ∀ {signature : Ty}, signature.uncurry.1.length = body.params.length → ∀ θ,
      (signature.bind θ).peel body.params.length =
        (signature.uncurry.1.map (·.bind θ), signature.uncurry.2.bind θ) := fun h θ =>
    h ▸ Ty.peel_bind _ θ
  have hlinked := hlinked.map (Ψ := fun _ _ => True) (·.peel body.params.length) fun _ _ _ => trivial
  simp only [hparams hlength, hparams hlength'] at hlinked
  obtain ⟨hscopes, hresult⟩ := Ty.within_uncurry hscoped
  obtain ⟨hscopes', hresult'⟩ := Ty.within_uncurry hscoped'
  have hstate := state_checkBody c env i' op body e s'
  rw [hexpected'] at hstate
  dsimp only at hstate
  rw [if_pos hlength'] at hstate
  obtain ⟨⟨⟩, t', hcheck'⟩ := checkAgainst_follows (E := fun r => Naming.bindAll env.get? (body.params.zip r.1))
    (S := Prod.snd) ((knows_extend_zip hlength').trans (knows_extend_zip hlength).symm)
    (fun θ => by rw [TypeEnv.under_extend_zip, under_of_isClosed henv₂.1])
    (fun θ => by rw [TypeEnv.under_extend_zip, under_of_isClosed henv₂'.1])
    (fun _ => rfl) (fun _ => rfl)
    (by rwa [knows_extend_zip hlength]) s₂ s₂' () t hlinked hcheck hu (hstate ▸ hu')
    ⟨prepared_extend_zip (prepared_of_isClosed hwhole henv₂.1 _) hscopes, hresult⟩
    ⟨prepared_extend_zip (prepared_of_isClosed hwhole henv₂'.1 _) hscopes', hresult'⟩
    (hopen.subset hids)
  exact ⟨t', returns_checkBody_iff.2 ⟨signature'.uncurry, s₂', hexpected', hlength', hcheck'⟩⟩

/-- The check of a body, if it is an expression for an operation of the structure. -/
def checkInline (c : Context) (env : TypeEnv) (i : RegisteredImplementation) (body : OperationBody) :
    Review Unit :=
  match body.expr, i.interface.operation? body.name with
  | some e, some op => checkBody c env i op body e
  | _, _ => return ()

theorem checkInline_keeps (c : Context) (env : TypeEnv) (i : RegisteredImplementation)
    (body : OperationBody) :
    Keeps reviewWatch (ready c env ⊓ Known ((TypeExpr.isWholeList i.decl.args = true ∧
        i.interface.isWhole = true) ∧ ∀ e, body.expr = some e → e.isWhole = true))
      (checkInline c env i body) fun _ => ⊤ := by
  unfold checkInline
  split
  · rename_i e op he hop
    exact (checkBody_keeps c env i op body e).of_pre fun n h =>
      ⟨h.1, ⟨h.2.1.1, i.interface.isWhole_of_operation? h.2.1.2 hop⟩, h.2.2 e he⟩
  · exact Keeps.pure fun _ _ => trivial

theorem supply_checkInline_le (c : Context) (env : TypeEnv) (i : RegisteredImplementation)
    (body : OperationBody) (bodies : List OperationBody) (s : State) :
    ((checkInline c env i body).outcome s).2.supply ≤
      (((body :: bodies).forM (checkInline c env i)).outcome s).2.supply := by
  have hrest : Keeps reviewWatch (ready c env ⊓ Known ((TypeExpr.isWholeList i.decl.args = true ∧
      i.interface.isWhole = true) ∧ ∀ body ∈ bodies, ∀ e, body.expr = some e → e.isWhole = true))
      (bodies.forM (checkInline c env i)) fun _ => ⊤ :=
    .forM fun body hbody => (checkInline_keeps c env i body).of_pre fun n h =>
      ⟨h.1, h.2.1, h.2.2 body hbody⟩
  exact Succeeds.supply_le_bind (w := reviewView) (m := checkInline c env i body)
    (f := fun _ => bodies.forM (checkInline c env i)) (fun _ => hrest.grows) s

theorem sound_of_checkInline (hwhole : c.registry.isWhole = true)
    (hstructure : i.interface.isWhole = true)
    (hbody : ∀ e, body.expr = some e → e.isWhole = true) (hs : s.Sound)
    (henv : closedEnv env s.supply.next) (h : (checkInline c env i body).Returns s () t)
    (hu : t.supply.Unwrapped) : t.Sound ∧ closedEnv env t.supply.next := by
  by_cases hargs : TypeExpr.isWholeList i.decl.args = true
  · obtain ⟨ht, -, hle⟩ := (checkInline_keeps c env i body).of_returns h hu hs
      ⟨⟨hwhole, henv.1.inScope _⟩, ⟨hargs, hstructure⟩, hbody⟩
    exact ⟨ht, (closedEnv env).mono hle henv⟩
  · -- the type arguments of what is accepted are whole, if there is anything to check
    unfold checkInline at h
    split at h
    · obtain ⟨_, _, hexpected, -, -⟩ := returns_checkBody_iff.1 h
      obtain ⟨_, _, _, _, _, htypes, -⟩ := returns_expectedOf_iff.1 hexpected
      obtain ⟨_, hresolve, -⟩ := returns_annotatedList_iff.1 htypes
      exact absurd (DataTypes.isWholeList_of_resolveList hresolve) hargs
    · cases h
      exact ⟨hs, henv⟩

/-- Every body leaves the free names of the type arguments open, when those before have been checked. -/
def AllLeaveNamesOpen (c : Context) (env : TypeEnv) (i : RegisteredImplementation)
    (bodies : List OperationBody) (s : State) : Prop :=
  ∀ before body rest e op s₁, bodies = before ++ body :: rest → body.expr = some e →
    i.interface.operation? body.name = some op →
      (before.forM (checkInline c env i)).Returns s () s₁ → LeavesNamesOpen c env i op body e s₁

theorem AllLeaveNamesOpen.tail {body : OperationBody} {bodies : List OperationBody}
    (h : AllLeaveNamesOpen c env i (body :: bodies) s)
    (hbody : (checkInline c env i body).Returns s () s') : AllLeaveNamesOpen c env i bodies s' := by
  rintro before b rest e op s₁ rfl hexpr hop hbefore
  exact h (body :: before) b rest e op s₁ rfl hexpr hop
    (Attempt.returns_bind_iff.2 ⟨(), s', hbody, hbefore⟩)

section

variable {σ : String → TypeExpr} {bodies : List OperationBody} (hσ : c.data.FillsIn σ)
  (hinterface : i'.interface = i.interface)
  (hargs : i'.decl.args = TypeExpr.fillList c.data σ i.decl.args)
  (hwhole : c.registry.isWhole = true) (hstructure : i.interface.isWhole = true)

include hσ hinterface hargs hwhole hstructure

theorem exists_returns_checkInline (hcore : ∀ e, body.expr = some e → e.isCore c.registry
      (fun name => body.params.contains name || knows env name) = true)
    (hs : s.Sound) (hs' : s'.Sound) (henv : closedEnv env s.supply.next)
    (henv' : closedEnv env s'.supply.next) (h : (checkInline c env i body).Returns s () t)
    (hu : t.supply.Unwrapped)
    (hopen : ∀ e op, body.expr = some e → i.interface.operation? body.name = some op →
      LeavesNamesOpen c env i op body e s)
    (hu' : ((checkInline c env i' body).outcome s').2.supply.Unwrapped) :
    ∃ t', (checkInline c env i' body).Returns s' () t' := by
  unfold checkInline at h hu' ⊢
  rw [hinterface] at hu' ⊢
  cases hexpr : body.expr with
  | none => exact ⟨s', rfl⟩
  | some e =>
      cases hop : i.interface.operation? body.name with
      | none => exact ⟨s', rfl⟩
      | some op =>
          rw [hexpr, hop] at h hu'
          exact exists_returns_checkBody hσ hinterface hargs hwhole
            (i.interface.isWhole_of_operation? hstructure hop) (hcore e hexpr) hs hs' henv henv' h hu
            (hopen e op hexpr hop) hu'

theorem exists_returns_forM_checkInline (hcore : ∀ body ∈ bodies, ∀ e, body.expr = some e →
      e.isCore c.registry (fun name => body.params.contains name || knows env name) = true)
    (hs : s.Sound) (hs' : s'.Sound) (henv : closedEnv env s.supply.next)
    (henv' : closedEnv env s'.supply.next) (h : (bodies.forM (checkInline c env i)).Returns s () t)
    (hu : t.supply.Unwrapped) (hopen : AllLeaveNamesOpen c env i bodies s)
    (hu' : ((bodies.forM (checkInline c env i')).outcome s').2.supply.Unwrapped) :
    ∃ t', (bodies.forM (checkInline c env i')).Returns s' () t' := by
  induction bodies generalizing s s' with
  | nil => exact ⟨s', rfl⟩
  | cons body bodies ih =>
      obtain ⟨hbody, hbodies⟩ := List.forall_mem_cons.1 hcore
      obtain ⟨⟨⟩, s₁, hfirst, hrest⟩ := Attempt.returns_bind_iff.1 h
      have hle := supply_checkInline_le c env i body bodies s
      have hle' := supply_checkInline_le c env i' body bodies s'
      rw [hfirst, h] at hle
      have hu₁ : s₁.supply.Unwrapped := hu.of_le hle
      obtain ⟨s₁', hfirst'⟩ := exists_returns_checkInline hσ hinterface hargs hwhole hstructure hbody hs
        hs' henv henv' hfirst hu₁ (fun e op hexpr hop => hopen [] body bodies e op s rfl hexpr hop rfl)
        (hu'.of_le hle')
      rw [hfirst'] at hle'
      have hexpr : ∀ e, body.expr = some e → e.isWhole = true := fun e he =>
        Expr.isWhole_of_isCore (hbody e he)
      obtain ⟨hs₁, henv₁⟩ := sound_of_checkInline hwhole hstructure hexpr hs henv hfirst hu₁
      obtain ⟨hs₁', henv₁'⟩ := sound_of_checkInline hwhole (hinterface ▸ hstructure) hexpr hs' henv'
        hfirst' (hu'.of_le hle')
      have hsecond' : ((body :: bodies).forM (checkInline c env i')).outcome s' =
          (bodies.forM (checkInline c env i')).outcome s₁' := by
        show (checkInline c env i' body >>= fun _ => bodies.forM (checkInline c env i')).outcome s' = _
        rw [Attempt.outcome_bind, hfirst']
      rw [hsecond'] at hu'
      obtain ⟨t', hrest'⟩ := ih hbodies hs₁ hs₁' henv₁ henv₁' hrest (hopen.tail hfirst) hu'
      exact ⟨t', hsecond'.trans hrest'⟩

end

end Inference

/-- An implementation with written types for the free names of its type arguments, and with the
template that comes of them. -/
def RegisteredImplementation.fill (r : DataTypes) (σ : String → TypeExpr) (template : String)
    (i : RegisteredImplementation) : RegisteredImplementation :=
  ⟨i.interface, { i.decl with args := TypeExpr.fillList r σ i.decl.args }, template⟩

namespace Checker

/-- The check of an implementation in a session. -/
def implementing (i : RegisteredImplementation) : Run Unit := do
  let c ← get
  inferring (Inference.checkImplementation c.context c.env i)

theorem outcome_implementing (i : RegisteredImplementation) (c : Checker) :
    (implementing i).outcome c =
      (((Inference.checkImplementation c.context c.env i).outcome c.inference).1,
        { c with inference :=
          ((Inference.checkImplementation c.context c.env i).outcome c.inference).2 }) := by
  rw [implementing, Attempt.outcome_bind, Attempt.outcome_get]
  exact Attempt.outcome_zoom ..

theorem returns_implementing_iff {i : RegisteredImplementation} {c c' : Checker} :
    (implementing i).Returns c () c' ↔ ∃ t,
      (Inference.checkImplementation c.context c.env i).Returns c.inference () t ∧
        c' = { c with inference := t } := by
  rw [Attempt.Returns, outcome_implementing, Prod.mk.injEq]
  constructor
  · rintro ⟨hrun, rfl⟩
    exact ⟨_, Prod.ext hrun rfl, rfl⟩
  · rintro ⟨t, hrun, rfl⟩
    rw [hrun]
    exact ⟨rfl, rfl⟩

theorem supply_le_implementing (i : RegisteredImplementation) (c : Checker) :
    c.inference.supply ≤ ((implementing i).outcome c).2.inference.supply := by
  rw [outcome_implementing]
  exact (Inference.checkImplementation_keeps c.context c.env i).grows c.inference

/-- An implementation holds at every type. If the bodies are of the core of the language, are accepted
and leave the free names of the type arguments open, they are accepted with every type other than a
function type written for the names. -/
theorem implementing_fill {c c' : Checker} (hc : c.Reachable) {i : RegisteredImplementation}
    {σ : String → TypeExpr} (template : String) (hdeclared : i.interface ∈ c.registry.structures)
    (hcore : ∀ body ∈ i.decl.bodies, ∀ e, body.expr = some e → e.isCore c.registry
      (fun name => body.params.contains name || Inference.knows c.env name) = true)
    (hσ : c.registry.data.FillsIn σ) (h : (implementing i).Returns c () c') (hc' : c'.Unexhausted)
    (hopen : Inference.AllLeaveNamesOpen c.context c.env i i.decl.bodies c.inference)
    (hfilled : ((implementing (i.fill c.registry.data σ template)).outcome c).2.Unexhausted) :
    ∃ c'', (implementing (i.fill c.registry.data σ template)).Returns c () c'' := by
  have hle := supply_le_implementing i c
  rw [h] at hle
  have hu := hc.unwrapped_of_le hle hc'
  have hu' := hc.unwrapped_of_le (supply_le_implementing _ c) hfilled
  have hsound := hc.sound (hu.of_le hle)
  obtain ⟨t, hrun, rfl⟩ := returns_implementing_iff.1 h
  rw [outcome_implementing] at hu'
  have hinterface : (i.fill c.registry.data σ template).interface = i.interface := rfl
  obtain ⟨t', hrun'⟩ := Inference.exists_returns_forM_checkInline (c := c.context) hσ hinterface rfl
    hsound.registry ((Registry.isWhole_iff.1 hsound.registry).2.1 _ hdeclared) hcore hsound.inference
    hsound.inference hsound.env hsound.env hrun hu hopen hu'
  exact ⟨_, returns_implementing_iff.2 ⟨t', hrun', rfl⟩⟩

/-- A structure with a map of each type to itself. -/
def endomap : Structure :=
  ⟨"Endo", [⟨"A", none⟩], [⟨"step", .arrow (.named "A") (.named "A"), false⟩], []⟩

def invertible : Structure :=
  ⟨"Negatable", [⟨"A", none⟩], [⟨"neg", .arrow (.named "A") (.named "A"), false⟩], []⟩

/-- An implementation for every type. -/
def stepping (e : Expr) : RegisteredImplementation :=
  ⟨endomap, ⟨"Endo", [.named "a"], [⟨"step", ["x"], none, some e⟩]⟩, "('a)"⟩

/-- A checker that knows the structure of maps, and an operation that only numbers have. -/
def mapping : Checker :=
  (create ⟨false, false, 0, true, false⟩).after [
    .load "values" "data B = T | F data Type = Vector(n: Nat, T: Type)",
    .load "negation" "structure Negatable(A) \x7b operation neg : A -> A \x7d",
    .load "numbers" "implements Negatable(Real) \x7b operation neg = builtin_neg \x7d",
    .load "maps" "structure Endo(A) \x7b operation step : A -> A \x7d"]

set_option maxRecDepth 4000 in
theorem mapping_eq : ∃ c₁ c₂ c₃ : Checker,
    c₁ = ((load [.data ⟨"B", [], [⟨"T", []⟩, ⟨"F", []⟩]⟩, .data ⟨"Type", [],
      [⟨"Vector", [⟨some "n", .named "Nat"⟩, ⟨some "T", .named "Type"⟩]⟩]⟩]).outcome
        (empty ⟨false, false, 0, true, false⟩)).2 ∧
    c₂ = ((load [.interface invertible]).outcome c₁).2 ∧
    c₃ = ((load [.implementation
      ⟨"Negatable", [.named "Real"], [⟨"neg", [], some "builtin_neg", none⟩]⟩]).outcome c₂).2 ∧
    mapping = ((load [.interface endomap]).outcome c₃).2 := by
  have hvalues : Declaration.parseAll "data B = T | F data Type = Vector(n: Nat, T: Type)" =
      .ok [.data ⟨"B", [], [⟨"T", []⟩, ⟨"F", []⟩]⟩, .data ⟨"Type", [],
        [⟨"Vector", [⟨some "n", .named "Nat"⟩, ⟨some "T", .named "Type"⟩]⟩]⟩] := by cbv
  have hnegation : Declaration.parseAll "structure Negatable(A) \x7b operation neg : A -> A \x7d" =
      .ok [.interface invertible] := by cbv
  have hnumbers : Declaration.parseAll
      "implements Negatable(Real) \x7b operation neg = builtin_neg \x7d" = .ok [.implementation
        ⟨"Negatable", [.named "Real"], [⟨"neg", [], some "builtin_neg", none⟩]⟩] := by cbv
  have hmaps : Declaration.parseAll "structure Endo(A) \x7b operation step : A -> A \x7d" =
      .ok [.interface endomap] := by cbv
  refine ⟨_, _, _, rfl, rfl, rfl, ?_⟩
  rw [mapping, after, after, after, after, after, state_load_request hvalues,
    state_load_request hnegation, state_load_request hnumbers, state_load_request hmaps]
  rfl

/-- The identity as an implementation for every type, which is taken in. -/
def identityTaken : {i : RegisteredImplementation // ((implementing i).outcome mapping).1 = .ok ()} :=
  ⟨stepping (.object "x"), by
    obtain ⟨c₁, c₂, c₃, rfl, rfl, rfl, heq⟩ := mapping_eq
    rw [heq]
    cbv⟩

theorem mapping_shows_identity :
    mapping.registry.structures = [invertible, endomap] ∧
      mapping.registry.data.resolveClosed [] (.named "B") = .ok (.data "B" "B" []) ∧
      ((implementing (stepping (.object "x"))).outcome mapping).2.inference.supply.drawn = 1 ∧
      ((implementing ((stepping (.object "x")).fill mapping.registry.data (fun _ => .named "B")
        "B")).outcome mapping).2.inference.supply.drawn = 0 ∧
      ((Inference.annotatedList mapping.context [] [] [.named "a"]).outcome
        mapping.inference.reset).1 = .ok ([.var 0], [("a", 0)]) ∧
      ((Inference.checkBody mapping.context mapping.env (stepping (.object "x"))
        ⟨"step", .arrow (.named "A") (.named "A"), false⟩ ⟨"step", ["x"], none, some (.object "x")⟩
          (.object "x")).outcome mapping.inference).2.subst.image 0 = .var 0 := by
  obtain ⟨c₁, c₂, c₃, rfl, rfl, rfl, heq⟩ := mapping_eq
  rw [heq]
  cbv
  exact ⟨rfl, trivial⟩

theorem implementing_fill_identity :
    mapping.Reachable ∧ (∃ c', (implementing (stepping (.object "x"))).Returns mapping () c') ∧
      ∃ c'', (implementing ((stepping (.object "x")).fill mapping.registry.data
        (fun _ => .named "B") "B")).Returns mapping () c'' := by
  obtain ⟨hstructures, hresolve, hdrawn, hfilled, hannotated, himage⟩ := mapping_shows_identity
  have hreachable : mapping.Reachable := ⟨_, _, rfl⟩
  have hreturns : (implementing (stepping (.object "x"))).Returns mapping () _ :=
    Attempt.returns_of_fst identityTaken.property
  refine ⟨hreachable, ⟨_, hreturns⟩, implementing_fill hreachable "B" ?_ ?_
    (fun _ => ⟨_, hresolve, rfl⟩) hreturns ?_ ?_ ?_⟩
  · rw [hstructures]
    exact .tail _ (.head _)
  · rintro body hbody e he
    obtain rfl := List.mem_singleton.1 hbody
    obtain rfl := Option.some.inj he
    rfl
  · unfold Unexhausted
    rw [hdrawn]
    decide
  · rintro before body rest e op s₁ hbodies hexpr hop hbefore
    -- there is one body, and nothing comes before it
    obtain ⟨rfl, hbody⟩ | ⟨-, hnone⟩ := List.append_eq_singleton_iff.1 hbodies.symm
    · obtain ⟨rfl, rfl⟩ := List.cons.inj hbody
      obtain rfl := Option.some.inj hexpr
      obtain rfl := Option.some.inj hop
      cases hbefore
      intro types names s₂ htypes
      have hpair := (congrArg Prod.fst htypes).symm.trans hannotated
      obtain ⟨rfl, rfl⟩ := Prod.mk.inj (Except.ok.inj hpair)
      refine ⟨fun id hid => ⟨0, ?_⟩, fun id hid id' hid' _ => ?_⟩
      · obtain rfl := List.mem_singleton.1 hid
        exact himage
      · rw [List.mem_singleton.1 hid, List.mem_singleton.1 hid']
    · cases hnone
  · unfold Unexhausted
    rw [hfilled]
    decide

theorem not_returns_of_toOption {i : RegisteredImplementation} {c : Checker}
    (h : ((implementing i).outcome c).1.toOption = none) : ¬∃ c', (implementing i).Returns c () c' := by
  rintro ⟨c', hc'⟩
  rw [hc'] at h
  cases h

/-- Bodies that fix the free name, call an operation for what it stands for, or take a value of it for
a dimension. -/
def demanding : List Expr :=
  [.const "1", .operation "neg" [.object "x"],
    .matching (.operation "Vector" [.object "x", .const "1"]) [(.wildcard, .object "x")]]

/-- What is demanded of an unknown type is taken in, and refused where a data type is written for it.
With a function type in its place an operation takes more arguments than its body has parameters. -/
theorem implementing_demanding :
    mapping.Reachable ∧ endomap ∈ mapping.registry.structures ∧
      (∀ body ∈ demanding, (∃ c', (implementing (stepping body)).Returns mapping () c') ∧
        ¬∃ c', (implementing ((stepping body).fill mapping.registry.data
          (fun _ => .named "B") "B")).Returns mapping () c') ∧
      (∃ c', (implementing (stepping (.object "x"))).Returns mapping () c') ∧
        ¬∃ c', (implementing ((stepping (.object "x")).fill mapping.registry.data
          (fun _ => .arrow (.named "B") (.named "B")) "B → B")).Returns mapping () c' := by
  obtain ⟨hstructures, -⟩ := mapping_shows_identity
  have hshows : (∀ body ∈ demanding,
      ((implementing (stepping body)).outcome mapping).1 = .ok () ∧
      ((implementing ((stepping body).fill mapping.registry.data
        (fun _ => .named "B") "B")).outcome mapping).1.toOption = none) ∧
      ((implementing ((stepping (.object "x")).fill mapping.registry.data
        (fun _ => .arrow (.named "B") (.named "B")) "B → B")).outcome mapping).1.toOption = none := by
    obtain ⟨c₁, c₂, c₃, rfl, rfl, rfl, heq⟩ := mapping_eq
    rw [heq]
    simp only [demanding, List.forall_mem_cons, List.not_mem_nil, false_implies, implies_true,
      and_true]
    cbv
  refine ⟨⟨_, _, rfl⟩, ?_, fun body hbody => ?_, ⟨_, Attempt.returns_of_fst identityTaken.property⟩,
    not_returns_of_toOption hshows.2⟩
  · rw [hstructures]
    exact .tail _ (.head _)
  · obtain ⟨haccepted, hrefused⟩ := hshows.1 body hbody
    exact ⟨⟨_, Attempt.returns_of_fst haccepted⟩, not_returns_of_toOption hrefused⟩

end Checker

end Formulary
