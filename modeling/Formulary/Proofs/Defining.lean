import Formulary.Proofs.Conservativity
import Formulary.Proofs.FirstOrder
import Formulary.Proofs.Searching
import Formulary.Proofs.Splitting

namespace Formulary

section

variable {σ ε ε' α β : Type} {w : View σ ε} {P P' : Upward} {A : α → Upward} {B : β → Upward}
  {J : α → Valuation → Naming → Prop}

/-- Steps that keep what is watched, and of whose value something holds under every valuation that
they leave open. Unlike `Finds` this does not tell which valuations are left open. -/
structure Shows (w : View σ ε) (P : Upward) (m : Attempt σ ε α) (A : α → Upward)
    (J : α → Valuation → Naming → Prop) : Prop extends Keeps w.toWatch P m A where
  shows : ∀ s a s', m.Returns s a s' → w.sound s → (w.supply s').Unwrapped → P (w.supply s).next →
    ∀ θ D, w.admits s' θ D → w.admits s θ D ∧ J a θ D

theorem Finds.toShows {γ : Type} {m : Attempt σ ε α} {read : α → Valuation → γ}
    {L : Valuation → Naming → γ → Prop} (h : Finds w P m A read L) :
    Shows w P m A fun a θ D => L θ D (read a θ) where
  toKeeps := h.toKeeps
  shows s a s' hrun hs hu hpre θ D hθ := (h.finds s a s' hrun hs hu hpre).sound θ D hθ

namespace Shows

theorem imp {J' : α → Valuation → Naming → Prop} {m : Attempt σ ε α} (h : Shows w P m A J)
    (hJ : ∀ a θ D, J a θ D → J' a θ D) : Shows w P m A J' where
  toKeeps := h.toKeeps
  shows s a s' hrun hs hu hpre θ D hθ :=
    (h.shows s a s' hrun hs hu hpre θ D hθ).imp_right (hJ a θ D)

theorem of_pre {m : Attempt σ ε α} (h : Shows w P m A J) (hP : ∀ n, P' n → P n) :
    Shows w P' m A J where
  toKeeps := h.toKeeps.of_pre hP
  shows s a s' hrun hs hu hpre := h.shows s a s' hrun hs hu (hP _ hpre)

/-- What holds on the side may be used to say what steps show. -/
theorem of_known {m : Attempt σ ε α} {φ : Prop} (hkeeps : Keeps w.toWatch P m A)
    (hφ : ∀ n, P n → φ) (h : φ → Shows w P m A J) : Shows w P m A J where
  toKeeps := hkeeps
  shows s a s' hrun hs hu hpre := (h (hφ _ hpre)).shows s a s' hrun hs hu hpre

theorem pure {a : α} (hA : ∀ n, P n → A a n) (hJ : ∀ θ D, J a θ D) :
    Shows w P (Pure.pure a) A J where
  toKeeps := Keeps.pure hA
  shows s a' s' hrun _ _ _ θ D hθ := by
    cases hrun
    exact ⟨hθ, hJ θ D⟩

theorem bind {m : Attempt σ ε α} {f : α → Attempt σ ε β} {K : α → β → Valuation → Naming → Prop}
    (hm : Shows w P m A J) (hf : ∀ a, Shows w (P ⊓ A a) (f a) B (K a)) :
    Shows w P (m >>= f) B fun b θ D => ∃ a, J a θ D ∧ K a b θ D where
  toKeeps := hm.toKeeps.bind fun a => (hf a).toKeeps
  shows s b s' hrun hs hu hpre θ D hθ := by
    obtain ⟨a, s₁, hfirst, hsecond⟩ := Attempt.returns_bind_iff.1 hrun
    have hu₁ := (hf a).unwrapped_of_returns hsecond hu
    obtain ⟨hs₁, ha, hle⟩ := hm.of_returns hfirst hu₁ hs hpre
    obtain ⟨hθ₁, hK⟩ := (hf a).shows s₁ b s' hsecond hs₁ hu ⟨P.mono hle hpre, ha⟩ θ D hθ
    obtain ⟨hθ₀, hJ⟩ := hm.shows s a s₁ hfirst hs hu₁ hpre θ D hθ₁
    exact ⟨hθ₀, a, hJ, hK⟩

theorem followedBy {m : Attempt σ ε α} {f : α → Attempt σ ε β}
    {K : α → β → Valuation → Naming → Prop} (hm : Shows w P' m A J) (hP : ∀ n, P n → P' n)
    (hf : ∀ a, Shows w (P ⊓ A a) (f a) B (K a)) :
    Shows w P (m >>= f) B fun b θ D => ∃ a, J a θ D ∧ K a b θ D :=
  (hm.of_pre hP).bind hf

theorem forM {f : α → Attempt σ ε PUnit} {l : List α}
    (h : ∀ a ∈ l, Shows w P (f a) (fun _ => ⊤) fun _ => J a) :
    Shows w P (l.forM f) (fun _ => ⊤) fun _ θ D => ∀ a ∈ l, J a θ D := by
  induction l with
  | nil => exact Shows.pure (fun _ _ => trivial) fun _ _ => nofun
  | cons a l ih =>
      show Shows w P (f a >>= fun _ => l.forM f) _ _
      refine ((h a (List.mem_cons_self ..)).bind fun _ =>
        (ih fun b hb => h b (List.mem_cons_of_mem _ hb)).of_pre fun _ h => h.1).imp ?_
      rintro _ θ D ⟨_, ha, hl⟩
      exact List.forall_mem_cons.2 ⟨ha, hl⟩

theorem adapt {m : Attempt σ ε α} {f : ε → ε'} {w' : View σ ε'} (h : Shows w P m A J)
    (hsupply : w'.supply = w.supply) (hsound : w'.sound = w.sound) (hadmits : w'.admits = w.admits)
    (hallowed : ∀ e, w.allowed e → w'.allowed (f e)) : Shows w' P (ExceptT.adapt f m) A J where
  toKeeps := h.toKeeps.adapt hsupply hsound hallowed
  shows s a s' hrun hs hu hpre := by
    rw [hsupply] at hu hpre
    rw [hsound] at hs
    rw [hadmits]
    exact h.shows s a s' (Attempt.returns_adapt.1 hrun) hs hu hpre

end Shows

end

namespace Naming

/-- Puts types for names, of two of one name the later. -/
def bindAll (Γ : Naming) (bindings : List (String × Ty)) : Naming :=
  bindings.foldl (fun Γ (name, t) => Function.update Γ name (some t)) Γ

theorem bindAll_eq_over (Γ : Naming) (bindings : List (String × Ty)) :
    Γ.bindAll bindings = Γ.over (Naming.empty.bindAll bindings) := by
  have hover : ∀ B : Naming, (Γ.over B).bindAll bindings = Γ.over (B.bindAll bindings) := by
    induction bindings with
    | nil => exact fun _ => rfl
    | cons b rest ih =>
        intro B
        have hupdate : Function.update (Γ.over B) b.1 (some b.2) =
            Γ.over (Function.update B b.1 (some b.2)) := by
          funext name
          by_cases h : name = b.1
          · subst h
            simp [Naming.over]
          · simp [Naming.over, h]
        show bindAll (Function.update (Γ.over B) b.1 (some b.2)) rest = _
        rw [hupdate, ih]
        rfl
  have hempty : Γ.over .empty = Γ := by
    funext name
    simp [Naming.over, empty]
  rw [← hover .empty, hempty]

theorem isSome_bindAll {Γ : Naming} {bindings : List (String × Ty)} {name : String} :
    (Γ.bindAll bindings name).isSome = true ↔
      name ∈ bindings.map (·.1) ∨ (Γ name).isSome = true := by
  induction bindings generalizing Γ with
  | nil => simp [bindAll]
  | cons b rest ih =>
      show (bindAll (Function.update Γ b.1 (some b.2)) rest name).isSome = true ↔ _
      rw [ih, List.map_cons, List.mem_cons, Function.update_apply]
      by_cases h : name = b.1
      · simp [h]
      · simp [h]

end Naming

namespace Definition

theorem paramTypes_eq (d : Definition) (ts : List Ty) :
    d.paramTypes ts = Naming.empty.bindAll (d.paramNames.zip ts) := rfl

theorem isSome_paramTypes {d : Definition} {ts : List Ty} (h : ts.length = d.params.length)
    (name : String) : (d.paramTypes ts name).isSome = true ↔ name ∈ d.paramNames := by
  have hnames : d.paramNames.length ≤ ts.length := by
    rw [paramNames, List.length_map]
    omega
  rw [paramTypes_eq, Naming.isSome_bindAll, List.map_fst_zip hnames]
  simp [Naming.empty]

end Definition

theorem Definition.mem_referred_iff {d : Definition} {name : String} :
    name ∈ d.referred ↔ name ∈ d.body.freeOccurrences d.paramNames := by
  rw [← List.nil_append d.paramNames, Expr.mem_freeOccurrences_append d.body [], referred, List.mem_filter, Expr.freeNames, List.mem_eraseDups, decide_eq_true_eq]

/-- Whether a definition is of first order: its body is, and refers to what is known or a constructor
only. -/
def Definition.isFirstOrder (r : Registry) (callable : String → Nat → Bool) (known : String → Bool)
    (d : Definition) : Bool :=
  d.body.isCore r (fun name => d.paramNames.contains name || known name) &&
    d.body.isFirstOrder r callable d.paramNames &&
    d.referred.all fun name => known name || !r.isOpen name

theorem Definition.isFirstOrder_iff {r : Registry} {callable : String → Nat → Bool}
    {known : String → Bool} {d : Definition} : d.isFirstOrder r callable known = true ↔
      (d.body.isCore r (fun name => d.paramNames.contains name || known name) = true ∧
        d.body.isFirstOrder r callable d.paramNames = true) ∧
        ∀ name ∈ d.referred, known name = true ∨ r.isOpen name = false := by
  simp only [isFirstOrder, Bool.and_eq_true, List.all_eq_true, Bool.or_eq_true, Bool.not_eq_true']

theorem Definition.isFirstOrder_of_agree {r : Registry} {callable : String → Nat → Bool}
    {known known' : String → Bool} {d : Definition} (h : d.isFirstOrder r callable known = true)
    (hagree : ∀ name ∈ d.referred, known name = known' name) :
    d.isFirstOrder r callable known' = true := by
  obtain ⟨⟨hcore, horder⟩, hrefers⟩ := isFirstOrder_iff.1 h
  refine isFirstOrder_iff.2 ⟨⟨?_, horder⟩, fun name hname => hagree name hname ▸ hrefers name hname⟩
  refine Expr.isCore_of_agree hcore
    (fun name (hname : name ∈ d.body.freeOccurrences d.paramNames) => ?_) fun name hname => ?_
  · rw [hagree name (mem_referred_iff.2 hname)]
  · simp [hname]

namespace Ty

theorem curry_inj {ts us : List Ty} {t u : Ty} (hlength : ts.length = us.length)
    (h : curry ts t = curry us u) : ts = us ∧ t = u := by
  induction ts generalizing us with
  | nil =>
      obtain rfl := List.eq_nil_of_length_eq_zero hlength.symm
      exact ⟨rfl, h⟩
  | cons a ts ih =>
      cases us with
      | nil => cases hlength
      | cons b us =>
          have hcons : fn a (curry ts t) = fn b (curry us u) := h
          rw [fn.injEq] at hcons
          obtain ⟨rfl, rfl⟩ := ih (Nat.succ.inj hlength) hcons.2
          exact ⟨congrArg (· :: ts) hcons.1, rfl⟩

theorem instance_generalize {t : Ty} (h : t.isMono = true) {ρ : Valuation} (hρ : ρ.IsMono) :
    (t.generalize fun _ => false).Instance (t.bind ρ) := by
  have hparts := unquantify_generalize h fun _ => false
  refine ⟨fun x => if x ∈ t.freeVars then ρ x else .var x, fun x => ?_, fun x hx => ?_, ?_⟩
  · dsimp only
    split
    · exact hρ x
    · rfl
  · rw [hparts] at hx
    exact if_neg fun hmem => hx (by simpa using hmem)
  · rw [hparts]
    refine bind_congr fun x hx => ?_
    rw [if_pos (by simpa [freeVars, List.mem_eraseDups] using hx)]

end Ty

namespace Inference

variable {c : Context}

theorem fixedEnv_insert {env : TypeEnv} {name : String} {t : Ty} {n : Int} (h : fixedEnv env n)
    (ht : t.inScope n) : fixedEnv (env.extend [(name, t)]) n := by
  intro other u hu
  rcases get?_extend hu with hu | hu
  · exact h other u hu
  · cases List.mem_singleton.1 hu
    exact ⟨Ty.schemeBelow_of_inScope ht, .inr ht⟩

/-- What is known where the parameters of a definition are. -/
def bindsParams (env : TypeEnv) (ps : List Binder) (r : List Ty × TypeEnv × Annotations) : Prop :=
  r.1.length = ps.length ∧ ∀ θ : Valuation, r.2.1.under θ =
    (env.under θ).bindAll ((ps.map (·.name)).zip (r.1.map (·.bind θ)))

theorem bindParams_shows (c : Context) (env : TypeEnv) (names : Annotations) (ps : List Binder) :
    Shows inferView (Known (ps.all Binder.isWhole = true) ⊓ fixedEnv env ⊓ annotationsBefore names)
      (bindParams c env names ps)
      (fun r => Every Ty.inScope r.1 ⊓ fixedEnv r.2.1 ⊓ annotationsBefore r.2.2 ⊓
        Known (bindsParams env ps r)) fun _ _ _ => True := by
  induction ps generalizing env names with
  | nil =>
      exact Shows.pure (fun n h => ⟨⟨⟨every_nil _ n, h.1.2⟩, h.2⟩, rfl, fun _ => rfl⟩)
        fun _ _ => trivial
  | cons p rest ih =>
      rw [bindParams]
      have hwhole : ∀ n, Known ((p :: rest).all Binder.isWhole = true) n →
          p.isWhole = true ∧ rest.all Binder.isWhole = true := fun n h => by
        simpa [Known] using h
      refine Shows.imp (freshVar_finds.toShows.bind (K := fun _ _ _ _ => True) fun var => ?_)
        fun _ _ _ _ => trivial
      have hrest : ∀ (names' : Annotations) {Q : Upward},
          (∀ n, Q n → (rest.all Binder.isWhole = true ∧ fixedEnv env n ∧ var.inScope n) ∧
            annotationsBefore names' n) →
          Shows inferView Q (bindParams c (env.extend [(p.name, var)]) names' rest >>=
            fun r => Pure.pure (var :: r.1, r.2.1, r.2.2))
            (fun r => Every Ty.inScope r.1 ⊓ fixedEnv r.2.1 ⊓ annotationsBefore r.2.2 ⊓
              Known (bindsParams env (p :: rest) r)) fun _ _ _ => True := by
        intro names' Q hQ
        refine Shows.imp ((ih (env.extend [(p.name, var)]) names').followedBy
          (K := fun _ _ _ _ => True) (fun n h => ?_) fun r => ?_) fun _ _ _ _ => trivial
        · obtain ⟨⟨hrest, henv, hvar⟩, hnames⟩ := hQ n h
          exact ⟨⟨hrest, fixedEnv_insert henv hvar⟩, hnames⟩
        · refine Shows.pure (fun n h => ⟨⟨⟨every_cons.2 ⟨(hQ n h.1).1.2.2, h.2.1.1.1⟩, h.2.1.1.2⟩,
            h.2.1.2⟩, congrArg (· + 1) h.2.2.1, fun θ => ?_⟩) fun _ _ => trivial
          have hinsert : TypeEnv.under (env.extend [(p.name, var)]) θ =
              Function.update (env.under θ) p.name (some (var.bind θ)) :=
            TypeEnv.under_insert env p.name var θ
          rw [h.2.2.2 θ, hinsert]
          rfl
      split
      · exact hrest names fun n h => ⟨⟨(hwhole n h.1.1.1).2, h.1.1.2, h.2⟩, h.1.2⟩
      · rename_i e htype
        have hannotated : Shows inferView (Known (e.isWhole = true) ⊓ Scope.inScope [] ⊓
            annotationsBefore names) (annotated c [] names e)
            (fun r => r.1.inScope ⊓ annotationsBefore r.2) fun _ _ _ => True :=
          ((fresh_quiet _).finds (annotated_keeps c [] names e)).toShows
        refine Shows.imp (hannotated.followedBy (K := fun _ _ _ _ => True)
          (fun n h => ⟨⟨?_, ?_⟩, h.1.2⟩) fun r => ?_) fun _ _ _ _ => trivial
        · simpa [Binder.isWhole, htype, Known] using (hwhole n h.1.1.1).1
        · exact fun name t hmem => absurd hmem List.not_mem_nil
        · refine Shows.imp ((unify_finds c var r.1).toShows.followedBy (K := fun _ _ _ _ => True)
            (fun n h => ⟨h.1.2, h.2.1⟩) fun _ => ?_) fun _ _ _ _ => trivial
          exact hrest r.2 fun n h =>
            ⟨⟨(hwhole n h.1.1.1.1.1).2, h.1.1.1.1.2, h.1.1.2⟩, h.1.2.2⟩

theorem knows_of_bindsParams {env : TypeEnv} {d : Definition} {r : List Ty × TypeEnv × Annotations}
    (h : bindsParams env d.params r) :
    knows r.2.1 = fun name => d.paramNames.contains name || knows env name := by
  have hnames : ((d.params.map (·.name)).zip (r.1.map (·.bind Ty.var))).map (·.1) = d.paramNames := by
    refine List.map_fst_zip ?_
    rw [List.length_map, List.length_map, h.1]
  funext name
  have hsome : ∀ env : TypeEnv, knows env name = (env.under Ty.var name).isSome := fun env => by
    rw [knows, TypeEnv.under, Option.isSome_map]
  rw [hsome r.2.1, hsome env, h.2 Ty.var, Bool.eq_iff_iff, Naming.isSome_bindAll, hnames]
  simp

/-- A definition has a type where its body has the result of that type, for parameters that have the
parameters of that type. -/
def HasBody (c : Context) (env : TypeEnv) (d : Definition) (t : Ty) (θ : Valuation) (D : Naming) :
    Prop :=
  ∃ ts u, ts.length = d.params.length ∧
    HasType c.registry D ((env.under θ).over (d.paramTypes ts)) d.body u ∧ t.bind θ = Ty.curry ts u

theorem inferDefinition_shows {env : TypeEnv} {d : Definition}
    (hcore : d.body.isCore c.registry (fun name => d.paramNames.contains name || knows env name) =
      true) :
    Shows inferView (prepared c env ⊓ Known (d.isWhole = true)) (inferDefinition c env d) Ty.inScope
      (HasBody c env d) := by
  have hwhole : ∀ n, Known (d.isWhole = true) n → (d.params.all Binder.isWhole = true ∧
      d.result.all TypeExpr.isWhole = true) ∧ d.body.isWhole = true := fun n h => by
    simpa only [Known, Definition.isWhole, Bool.and_eq_true] using h
  unfold inferDefinition
  refine Shows.imp ((bindParams_shows c env [] d.params).followedBy (K := fun _ t => HasBody c env d t)
    (fun n h => ⟨⟨(hwhole n h.2).1.1, h.1.2⟩, every_nil _ n⟩) fun r => ?_)
    fun t θ D h => h.elim fun _ h => h.2
  have hbody : Shows inferView (prepared c env ⊓ Known (d.isWhole = true) ⊓
      (Every Ty.inScope r.1 ⊓ fixedEnv r.2.1 ⊓ annotationsBefore r.2.2 ⊓
        Known (bindsParams env d.params r))) (infer c r.2.1 d.body) Ty.inScope
      fun t θ D => (r.1.map (·.bind θ)).length = d.params.length ∧ HasType c.registry D
        ((env.under θ).over (d.paramTypes (r.1.map (·.bind θ)))) d.body (t.bind θ) := by
    refine Shows.of_known ((infer_keeps c r.2.1 d.body).of_pre fun n h =>
      ⟨prepared_ready ⟨h.1.1.1, h.2.1.1.2⟩, (hwhole n h.1.2).2⟩) (fun n h => h.2.2) fun hbinds => ?_
    have hcore' : d.body.isCore c.registry (knows r.2.1) = true :=
      knows_of_bindsParams hbinds ▸ hcore
    refine Shows.imp ((infer_finds c r.2.1 d.body hcore').toShows.of_pre fun n h =>
      ⟨h.1.1.1, h.2.1.1.2⟩) fun t θ D h => ⟨?_, ?_⟩
    · rw [List.length_map, hbinds.1]
    · rw [Definition.paramTypes_eq, ← Naming.bindAll_eq_over]
      exact hbinds.2 θ ▸ h
  refine Shows.imp (hbody.bind (K := fun t v θ _ =>
    v.bind θ = Ty.curry (r.1.map (·.bind θ)) (t.bind θ)) fun t => ?_)
    fun v θ D h => h.elim fun _ h => ⟨_, _, h.1.1, h.1.2, h.2⟩
  have hresult : ∀ {Q : Upward}, (∀ n, Q n → Every Ty.inScope r.1 n ∧ t.inScope n) →
      Shows inferView Q (known (Ty.curry r.1 t)) Ty.inScope fun v θ _ =>
        v.bind θ = Ty.curry (r.1.map (·.bind θ)) (t.bind θ) := fun hQ =>
    Shows.imp ((known_finds _).toShows.of_pre fun n h => Ty.within_curry.2 (hQ n h))
      fun v θ D h => by rw [h, bind_curry]
  split
  · rename_i e hresultType
    have hannotated : Shows inferView (Known (e.isWhole = true) ⊓ Scope.inScope [] ⊓
        annotationsBefore r.2.2) (annotated c [] r.2.2 e)
        (fun r => r.1.inScope ⊓ annotationsBefore r.2) fun _ _ _ => True :=
      ((fresh_quiet _).finds (annotated_keeps c [] r.2.2 e)).toShows
    refine Shows.imp (hannotated.followedBy (K := fun _ v θ _ =>
      v.bind θ = Ty.curry (r.1.map (·.bind θ)) (t.bind θ)) (fun n h => ⟨⟨?_, ?_⟩, h.1.2.1.2⟩)
      fun u => ?_) fun v θ D h => h.elim fun _ h => h.2
    · simpa [hresultType, Known] using (hwhole n h.1.1.2).1.2
    · exact fun name t hmem => absurd hmem List.not_mem_nil
    · refine Shows.imp ((blaming_finds (unify_finds c t u.1)).toShows.followedBy (K := fun _ v θ _ =>
        v.bind θ = Ty.curry (r.1.map (·.bind θ)) (t.bind θ)) (fun n h => ⟨h.1.2, h.2.1⟩)
        fun _ => ?_) fun v θ D h => h.elim fun _ h => h.2
      exact hresult fun n h => ⟨h.1.1.1.2.1.1.1, h.1.1.2⟩
  · exact hresult fun n h => ⟨h.1.2.1.1.1, h.2⟩

def reviewView : View State Error := { reviewWatch with admits := State.Admits }

theorem ofFaults_shows {α : Type} {P : Upward} {A : α → Upward} {J : α → Valuation → Naming → Prop}
    {steps : Infer α} (h : Shows inferView P steps A J) :
    Shows reviewView P (Attempt.ofFaults steps) A J :=
  h.adapt rfl rfl rfl fun f hf g hg => by
    cases hg
    exact hf

theorem within_shows {α : Type} {P : Upward} {A : α → Upward} {J : α → Valuation → Naming → Prop}
    {place : String} {steps : Review α} (h : Shows reviewView P steps A J) :
    Shows reviewView P (Attempt.within place steps) A J :=
  h.adapt rfl rfl rfl fun _ he => he

theorem returns_bindGroup {env inner : TypeEnv} {group : List Definition}
    {bound : List (Definition × Ty)} {s s' : State}
    (h : (bindGroup env group).Returns s (bound, inner) s') :
    inner = env.extend (bound.map fun b => (b.1.name, b.2)) := by
  induction group generalizing env s bound with
  | nil =>
      cases h
      rfl
  | cons d rest ih =>
      obtain ⟨var, s₁, -, h⟩ := Attempt.returns_bind_iff.1 h
      obtain ⟨⟨bound', inner'⟩, s₂, hrest, h⟩ := Attempt.returns_bind_iff.1 h
      cases h
      have hinner := ih hrest
      exact hinner

theorem knows_extend_iff {env : TypeEnv} {bindings : List (String × Ty)} {name : String} :
    knows (env.extend bindings) name = true ↔
      name ∈ bindings.map (·.1) ∨ knows env name = true := by
  induction bindings generalizing env with
  | nil => simp [TypeEnv.extend, SortedMap.insertAll]
  | cons b rest ih =>
      show knows (TypeEnv.extend (env.insert b.1 b.2) rest) name = true ↔ _
      have hinsert : knows (env.insert b.1 b.2) name = true ↔ name = b.1 ∨ knows env name = true := by
        rw [knows, knows, SortedMap.get?_insert]
        by_cases hname : b.1 = name
        · simp [hname]
        · simp [hname, Ne.symm hname]
      rw [ih, hinsert, List.map_cons, List.mem_cons]
      tauto

theorem get?_extend_of_mem {env : TypeEnv} {bindings : List (String × Ty)} {name : String} {t : Ty}
    (hnodup : (bindings.map (·.1)).Nodup) (h : (name, t) ∈ bindings) :
    (env.extend bindings).get? name = some t := by
  induction bindings generalizing env with
  | nil => exact absurd h List.not_mem_nil
  | cons b rest ih =>
      obtain ⟨hnew, hnodup⟩ := List.nodup_cons.1 hnodup
      show (TypeEnv.extend (env.insert b.1 b.2) rest).get? name = some t
      rcases List.mem_cons.1 h with rfl | h
      · rw [TypeEnv.extend, SortedMap.get?_insertAll_of_notMem, SortedMap.get?_insert, if_pos rfl]
        exact fun other hother heq => hnew (List.mem_map.2 ⟨other, hother, heq⟩)
      · exact ih hnodup h

theorem forM_group_shows (c : Context) (inner : TypeEnv) (bound : List (Definition × Ty))
    (hcore : ∀ b ∈ bound, b.1.body.isCore c.registry (fun name => b.1.paramNames.contains name ||
      knows inner name) = true) (hwhole : ∀ b ∈ bound, b.1.isWhole = true) :
    Shows reviewView (prepared c inner ⊓ Every (fun b : Definition × Ty => b.2.inScope) bound)
      (bound.forM fun (d, var) => Attempt.within ("define " ++ d.name) <| Attempt.ofFaults do
        let t ← inferDefinition c inner d
        blaming d.body (unify c var t)) (fun _ => ⊤)
      fun _ θ D => ∀ b ∈ bound, HasBody c inner b.1 b.2 θ D := by
  refine Shows.forM fun b hb => within_shows (ofFaults_shows ?_)
  refine Shows.imp ((inferDefinition_shows (hcore b hb)).followedBy (K := fun t _ θ _ =>
    b.2.bind θ = t.bind θ) (fun n h => ⟨h.1, hwhole b hb⟩) fun t => ?_) ?_
  · exact (blaming_finds (unify_finds c b.2 t)).toShows.of_pre fun n h => ⟨h.1.2 b hb, h.2⟩
  · rintro _ θ D ⟨t, ⟨ts, u, hlength, htype, ht⟩, hsame⟩
    exact ⟨ts, u, hlength, htype, hsame.trans ht⟩

/-- The names of the definitions of a group, with types for them. -/
def groupTypes (bound : List (Definition × Ty)) (f : Ty → Ty) : List (String × Ty) :=
  bound.map fun b => (b.1.name, f b.2)

theorem names_groupTypes (bound : List (Definition × Ty)) (f : Ty → Ty) :
    (groupTypes bound f).map (·.1) = (bound.map (·.1)).map (·.name) := by
  simp [groupTypes, List.map_map, Function.comp_def]

/-- What is found out about a group: variables for the definitions, and in the end what these stand
for. Whatever is put for the variables that are left, each definition has the type of its variable
where the definitions of the group have the types of theirs. -/
structure Solved (c : Context) (env env' : TypeEnv) (group : List Definition)
    (bound : List (Definition × Ty)) (subst : Subst) : Prop where
  members : bound.map (·.1) = group
  types : env' = env.extend (groupTypes bound fun var => (subst.apply var).generalize fun _ => false)
  mono : ∀ b ∈ bound, b.2.isMono = true
  range : subst.MonoRange
  bodies : ∀ ρ : Valuation, ρ.IsMono → ∃ D, ∀ b ∈ bound,
    HasBody c (env.extend (groupTypes bound id)) b.1 b.2 (fun x => (subst.image x).bind ρ) D

theorem solved_of_inferGroup {env env' : TypeEnv} {group : List Definition} {s s' : State}
    (h : (inferGroup c env group).Returns s env' s') (hu : s'.supply.Unwrapped) (hs : s.Sound)
    (hwhole : c.registry.isWhole = true) (henv : closedEnv env s.supply.next)
    (hgroup : group.all Definition.isWhole = true)
    (hcore : ∀ d ∈ group, d.body.isCore c.registry (fun name => d.paramNames.contains name ||
      knows env' name) = true) : ∃ bound subst, Solved c env env' group bound subst := by
  unfold inferGroup at h
  obtain ⟨_, s₀, hreset, h⟩ := Attempt.returns_bind_iff.1 h
  cases hreset
  obtain ⟨⟨bound, inner⟩, s₁, hbound, h⟩ := Attempt.returns_bind_iff.1 h
  obtain ⟨_, s₂, hforM, h⟩ := Attempt.returns_bind_iff.1 h
  obtain ⟨_, s₃, hidempotent, h⟩ := Attempt.returns_bind_iff.1 h
  cases h
  have hbound := Attempt.returns_adapt.1 hbound
  have hstate : (requireIdempotent.outcome s₂).2 = s' :=
    congrArg Prod.snd (Attempt.returns_adapt.1 hidempotent)
  rw [outcome_requireIdempotent] at hstate
  subst hstate
  have hmembers := fst_of_bindGroup hbound
  obtain rfl := returns_bindGroup hbound
  have hnames : knows (env.extend (groupTypes bound id)) = knows (env.extend
      (groupTypes bound fun var => (s₂.subst.apply var).generalize fun _ => false)) := by
    funext name
    rw [Bool.eq_iff_iff, knows_extend_iff, knows_extend_iff, names_groupTypes, names_groupTypes]
  have hall : ∀ b ∈ bound, b.1 ∈ group := fun b hb => hmembers ▸ List.mem_map_of_mem hb
  have hshows := forM_group_shows c (env.extend (groupTypes bound id)) bound
    (fun b hb => hnames ▸ hcore b.1 (hall b hb)) fun b hb => List.all_eq_true.1 hgroup b.1 (hall b hb)
  have hu₁ := hshows.unwrapped_of_returns hforM hu
  obtain ⟨hs₁, ⟨⟨hvars, -⟩, -⟩, hle⟩ := (bindGroup_keeps env group).of_returns hbound hu₁ hs.reset
    (henv.1.inScope _)
  have hprepared : prepared c (env.extend (groupTypes bound id)) s₁.supply.next := by
    refine ⟨hwhole, fun name t ht => ?_⟩
    rcases get?_extend ht with ht | ht
    · exact (prepared_of_isClosed hwhole henv.1 _).2 name t ht
    · obtain ⟨b, hb, heq⟩ := List.mem_map.1 ht
      cases heq
      exact ⟨Ty.schemeBelow_of_inScope (hvars b hb), .inr (hvars b hb)⟩
  obtain ⟨hs₂, -, -⟩ := hshows.of_returns hforM hu hs₁ ⟨hprepared, hvars⟩
  have hs₂ : s₂.Sound := hs₂
  refine ⟨bound, s₂.subst, hmembers, rfl, fun b hb => (hvars b hb).1, hs₂.subst.2.monoRange,
    fun ρ hρ => ?_⟩
  have hadmits : s₂.Admits (fun x => (s₂.subst.image x).bind ρ)
      fun name => (s₂.free.lookup name).map fun id => (s₂.subst.image id).bind ρ := by
    refine ⟨fun x => Ty.isMono_bind (hs₂.subst.2.monoRange x) fun y _ => hρ y, fun name t ht => ?_,
      fun x => ?_, fun name id hid => ?_⟩
    · obtain ⟨id, -, rfl⟩ := Option.map_eq_some_iff.1 ht
      exact Ty.isMono_bind (hs₂.subst.2.monoRange id) fun y _ => hρ y
    · rw [← Ty.bind_bind _ _ (hs₂.subst.2.monoRange x), hs₂.subst.1.bind_image]
    · rw [hid, Option.map_some]
  exact ⟨_, (hshows.shows s₁ () s₂ hforM hs₁ hu ⟨hprepared, hvars⟩ _ _ hadmits).2⟩

theorem Solved.knows_eq {env env' : TypeEnv} {group : List Definition}
    {bound : List (Definition × Ty)} {subst : Subst} (h : Solved c env env' group bound subst) :
    knows (env.extend (groupTypes bound id)) = knows env' := by
  funext name
  rw [h.types, Bool.eq_iff_iff, knows_extend_iff, knows_extend_iff, names_groupTypes,
    names_groupTypes]

/-- Where a group has been solved, what is used of its definitions and of those before are instances
of their schemes. -/
theorem Solved.instances {env env' : TypeEnv} {group : List Definition}
    {bound : List (Definition × Ty)} {subst : Subst} (h : Solved c env env' group bound subst)
    (hnodup : (group.map (·.name)).Nodup)
    (hclosed : ∀ name t, env.get? name = some t → t.isClosedScheme = true) {ρ : Valuation}
    (hρ : ρ.IsMono) {name : String} {scheme : Ty}
    (hname : TypeEnv.under (env.extend (groupTypes bound id)) (fun x => (subst.image x).bind ρ) name =
      some scheme) :
    ∃ scheme', env'.get? name = some scheme' ∧ ∀ t, scheme.Instance t → scheme'.Instance t := by
  obtain ⟨w, hw, rfl⟩ := Option.map_eq_some_iff.1 hname
  by_cases hmem : ∃ b ∈ bound, b.1.name = name
  · obtain ⟨b, hb, rfl⟩ := hmem
    have hnames : ∀ f : Ty → Ty, ((groupTypes bound f).map (·.1)).Nodup := fun f => by
      rw [names_groupTypes, h.members]
      exact hnodup
    have hvar : (env.extend (groupTypes bound id)).get? b.1.name = some b.2 :=
      get?_extend_of_mem (hnames id) (List.mem_map.2 ⟨b, hb, rfl⟩)
    obtain rfl := Option.some.inj (hw.symm.trans hvar)
    have hscheme : env'.get? b.1.name = some ((subst.apply b.2).generalize fun _ => false) := by
      rw [h.types]
      exact get?_extend_of_mem (hnames _) (List.mem_map.2 ⟨b, hb, rfl⟩)
    refine ⟨_, hscheme, fun t ht => ?_⟩
    have hmono := h.mono b hb
    have hbind : b.2.bind (fun x => (subst.image x).bind ρ) = (subst.apply b.2).bind ρ := by
      rw [Subst.apply_eq_bind, Ty.bind_bind _ _ hmono]
    rw [hbind] at ht
    have happly := Subst.isMono_apply h.range hmono
    rw [(Ty.instance_iff_eq (Ty.isMono_bind happly fun x _ => hρ x)).1 ht]
    exact Ty.instance_generalize happly hρ
  · have hother : ∀ f : Ty → Ty, (env.extend (groupTypes bound f)).get? name = env.get? name :=
      fun f => by
        refine SortedMap.get?_insertAll_of_notMem (fun e he heq => hmem ?_) env
        obtain ⟨b, hb, rfl⟩ := List.mem_map.1 he
        exact ⟨b, hb, heq⟩
    rw [hother] at hw
    refine ⟨w, by rw [h.types, hother, hw], fun t ht => ?_⟩
    rwa [Ty.bind_of_isClosedScheme (hclosed name w hw)] at ht

theorem Solved.hasScheme {env env' : TypeEnv} {group : List Definition}
    {bound : List (Definition × Ty)} {subst : Subst} (h : Solved c env env' group bound subst)
    (hnodup : (group.map (·.name)).Nodup)
    (hclosed : ∀ name t, env.get? name = some t → t.isClosedScheme = true) {S : Setting}
    (hregistry : S.registry = c.registry) {callable : String → Nat → Bool}
    (hsized : ∀ name n, callable name n = true → S.sized name n) {d : Definition} (hd : d ∈ group)
    (hS : ∀ name ∈ d.referred, ∀ scheme, env'.get? name = some scheme → S.schemes name = some scheme)
    (horder : d.isFirstOrder c.registry callable (knows env') = true) :
    ∃ scheme, env'.get? d.name = some scheme ∧ d.HasScheme S scheme := by
  obtain ⟨⟨hcore, horder⟩, hrefers⟩ := Definition.isFirstOrder_iff.1 horder
  obtain ⟨b, hb, rfl⟩ : ∃ b ∈ bound, b.1 = d := List.mem_map.1 (h.members ▸ hd)
  have hnames : ((groupTypes bound fun var => (subst.apply var).generalize fun _ => false).map
      (·.1)).Nodup := by
    rw [names_groupTypes, h.members]
    exact hnodup
  refine ⟨_, h.types ▸ get?_extend_of_mem hnames (List.mem_map.2 ⟨b, hb, rfl⟩),
    fun ts t hlength hinstance => ?_⟩
  have hmono := h.mono b hb
  obtain ⟨ρ, hρ, -, hvalue⟩ := hinstance
  rw [Ty.unquantify_generalize (Subst.isMono_apply h.range hmono), Subst.apply_eq_bind,
    Ty.bind_bind _ _ hmono] at hvalue
  obtain ⟨D, hbodies⟩ := h.bodies ρ hρ
  obtain ⟨ts', u, hlength', htype, hvalue'⟩ := hbodies b hb
  obtain ⟨rfl, rfl⟩ := Ty.curry_inj (hlength.trans hlength'.symm) (hvalue.trans hvalue')
  have hknown : (fun name => (((TypeEnv.under (env.extend (groupTypes bound id))
      fun x => (subst.image x).bind ρ).over (b.1.paramTypes ts)) name).isSome) =
        fun name => b.1.paramNames.contains name || knows env' name := by
    funext name
    rw [Naming.over, Option.isSome_or, ← h.knows_eq, Bool.eq_iff_iff, Bool.or_eq_true,
      Bool.or_eq_true, Definition.isSome_paramTypes hlength, TypeEnv.under, Option.isSome_map]
    simp [knows]
  rw [← hregistry] at htype hcore horder
  refine Setting.typed_of_hasType htype (fun name _ => Naming.over_of_some)
    (Definition.isSome_paramTypes hlength) (hknown ▸ hcore) horder hsized fun name hname => ?_
  have hreferred := Definition.mem_referred_iff.2 hname
  have hparam : b.1.paramTypes ts name = none := by
    rw [← Option.not_isSome_iff_eq_none, Definition.isSome_paramTypes hlength]
    rw [← List.append_nil b.1.paramNames] at hname
    exact Expr.notMem_of_mem_freeOccurrences hname
  refine Setting.Serves.over ⟨fun scheme hscheme => ?_, fun hnone hopen => ?_⟩ hparam
  · obtain ⟨scheme', hscheme', hmore⟩ := h.instances hnodup hclosed hρ hscheme
    exact ⟨scheme', hS name hreferred scheme' hscheme', hmore⟩
  · rcases hrefers name hreferred with hknows | hclosed
    · rw [← h.knows_eq, knows, ← Option.isSome_map, ← TypeEnv.under, hnone] at hknows
      cases hknows
    · rw [hregistry, hclosed] at hopen
      cases hopen

theorem flatten_groupsOf (defs : List Definition) :
    (groupsOf defs).flatten = (Definition.groups defs).flatten.filterMap (defs[·]?) := by
  rw [groupsOf, List.filterMap_flatten]

theorem nodup_groupsOf {defs : List Definition} (h : (defs.map (·.name)).Nodup) :
    ((groupsOf defs).flatten.map (·.name)).Nodup := by
  rw [flatten_groupsOf, List.map_filterMap]
  refine List.Nodup.filterMap (fun i j name hi hj => ?_)
    (Definition.nodup_flatten_groups defs)
  have hname : ∀ {k : Nat}, name ∈ (defs[k]?).map (·.name) →
      (defs.map (·.name))[k]? = some name := fun hk => by
    rw [List.getElem?_map]
    exact hk
  exact (List.getElem?_inj (List.getElem?_eq_some_iff.1 (hname hi)).1 h).1
    ((hname hi).trans (hname hj).symm)

theorem mem_groupsOf {defs : List Definition} {d : Definition} (hd : d ∈ defs) :
    ∃ group ∈ groupsOf defs, d ∈ group := by
  obtain ⟨i, hi, rfl⟩ := List.mem_iff_getElem.1 hd
  obtain ⟨indexes, hgroup, hmem⟩ := Definition.exists_group_of_lt hi
  exact ⟨_, List.mem_map_of_mem hgroup,
    List.mem_filterMap.2 ⟨i, hmem, List.getElem?_eq_getElem hi⟩⟩

theorem mem_of_mem_groupsOf {defs group : List Definition} {d : Definition}
    (hgroup : group ∈ groupsOf defs) (hd : d ∈ group) : d ∈ defs := by
  obtain ⟨indexes, -, rfl⟩ := List.mem_map.1 hgroup
  obtain ⟨i, -, hi⟩ := List.mem_filterMap.1 hd
  exact List.mem_of_getElem? hi

theorem forall_mem_group {defs group : List Definition} {p : String → Prop}
    (hp : ∀ d ∈ defs, p d.name → ∀ name ∈ d.referred, name ∈ defs.map (·.name) → p name)
    (hgroup : group ∈ groupsOf defs) {d : Definition} (hd : d ∈ group) (h : p d.name) :
    ∀ d' ∈ group, p d'.name := by
  intro d' hd'
  obtain ⟨indexes, hindexes, rfl⟩ := List.mem_map.1 hgroup
  obtain ⟨i, hi, hget⟩ := List.mem_filterMap.1 hd
  obtain ⟨j, hj, hget'⟩ := List.mem_filterMap.1 hd'
  have hreached : ∀ k, Definition.Reaches (Definition.referencesAt defs) i k →
      ∃ e, defs[k]? = some e ∧ p e.name := by
    intro k hk
    induction hk with
    | refl => exact ⟨d, hget, h⟩
    | tail _ hnext ih =>
        obtain ⟨e, he, hpe⟩ := ih
        rw [Definition.referencesAt_of_getElem? he] at hnext
        obtain ⟨name, hname, hindex⟩ := List.mem_filterMap.1 (List.mem_eraseDups.1 hnext)
        obtain ⟨e', he', rfl⟩ := Definition.name_of_indexOf? hindex
        exact ⟨e', he', hp e (List.mem_of_getElem? he) hpe _ hname
          (List.mem_map_of_mem (List.mem_of_getElem? he'))⟩
  obtain ⟨e, he, hpe⟩ := hreached j (Definition.reaches_of_mem_group hindexes hi hj)
  cases he.symm.trans hget'
  exact hpe

theorem exists_group_of_referred {defs : List Definition} {pre post : List (List Definition)}
    {group : List Definition} (h : groupsOf defs = pre ++ group :: post) {d : Definition}
    (hd : d ∈ group) {name : String} (hname : name ∈ d.referred)
    (hdefined : name ∈ defs.map (·.name)) : ∃ g ∈ pre ++ [group], name ∈ g.map (·.name) := by
  obtain ⟨front, back, hgroups, rfl, hback⟩ := List.map_eq_append_iff.1 h
  obtain ⟨indexes, rest, rfl, rfl, rfl⟩ := List.map_eq_cons_iff.1 hback
  obtain ⟨i, hi, hget⟩ := List.mem_filterMap.1 hd
  obtain ⟨j, d', hindex, hget', rfl⟩ := Definition.exists_indexOf? hdefined
  have hreference : j ∈ Definition.references defs d :=
    List.mem_eraseDups.2 (List.mem_filterMap.2 ⟨d'.name, hname, hindex⟩)
  obtain ⟨g, hg, hj⟩ := Definition.exists_group_of_reference hgroups hi hget hreference
  refine ⟨g.filterMap (defs[·]?), ?_,
    List.mem_map_of_mem (List.mem_filterMap.2 ⟨j, hj, hget'⟩)⟩
  rw [← List.map_singleton, ← List.map_append]
  exact List.mem_map_of_mem hg

theorem knows_of_inferGroup {env env' : TypeEnv} {group : List Definition} {s s' : State}
    (h : (inferGroup c env group).Returns s env' s') (name : String) :
    knows env' name = true ↔ name ∈ group.map (·.name) ∨ knows env name = true := by
  unfold inferGroup at h
  obtain ⟨_, s₁, -, h⟩ := Attempt.returns_bind_iff.1 h
  obtain ⟨⟨bound, inner⟩, s₂, hbound, h⟩ := Attempt.returns_bind_iff.1 h
  obtain ⟨_, s₃, -, h⟩ := Attempt.returns_bind_iff.1 h
  obtain ⟨_, s₄, -, h⟩ := Attempt.returns_bind_iff.1 h
  obtain ⟨_, s₅, -, h⟩ := Attempt.returns_bind_iff.1 h
  cases h
  have hmembers := fst_of_bindGroup (Attempt.returns_adapt.1 hbound)
  refine knows_extend_iff.trans ?_
  rw [← hmembers, List.map_map, List.map_map]
  rfl

theorem knows_of_inferGroups {env env' : TypeEnv} {groups : List (List Definition)} {s : State}
    (h : ((inferGroups c env groups).run s).1 = (env', .ok ())) (name : String) :
    knows env' name = true ↔ name ∈ groups.flatten.map (·.name) ∨ knows env name = true := by
  induction groups generalizing env s with
  | nil =>
      cases h
      simp
  | cons group rest ih =>
      rw [run_inferGroups_cons] at h
      cases hgroup : (inferGroup c env group).outcome s with
      | mk r s₁ =>
          rw [hgroup] at h
          cases r with
          | ok inner =>
              rw [ih h, knows_of_inferGroup hgroup, List.flatten_cons, List.map_append,
                List.mem_append]
              tauto
          | error e => cases h

theorem hasScheme_of_inferGroups {env env' : TypeEnv} {groups : List (List Definition)} {s s' : State}
    (h : (inferGroups c env groups).run s = ((env', .ok ()), s')) (hu : s'.supply.Unwrapped)
    (hs : s.Sound) (hwhole : c.registry.isWhole = true) (henv : closedEnv env s.supply.next)
    (hgroups : ∀ group ∈ groups, group.all Definition.isWhole = true)
    (hnodup : (groups.flatten.map (·.name)).Nodup)
    (hnew : ∀ name ∈ groups.flatten.map (·.name), knows env name = false) {S : Setting}
    (hregistry : S.registry = c.registry) {trusted : String → Bool}
    (hS : ∀ name, trusted name = true → ∀ scheme, env'.get? name = some scheme →
      S.schemes name = some scheme)
    {callable : String → Nat → Bool} (hsized : ∀ name n, callable name n = true → S.sized name n)
    (htogether : ∀ group ∈ groups, ∀ d ∈ group, trusted d.name = true → ∀ d' ∈ group,
      trusted d'.name = true)
    (horder : ∀ group ∈ groups, ∀ d ∈ group, trusted d.name = true →
      d.isFirstOrder c.registry callable (knows env') = true)
    (hrefers : ∀ group ∈ groups, ∀ d ∈ group, trusted d.name = true → ∀ name ∈ d.referred,
      knows env' name = true → trusted name = true)
    (hordered : ∀ pre group post, groups = pre ++ group :: post → ∀ d ∈ group, ∀ name ∈ d.referred,
      knows env' name = true → knows env name = true ∨ ∃ g ∈ pre ++ [group], name ∈ g.map (·.name)) :
    ∀ group ∈ groups, ∀ d ∈ group, trusted d.name = true →
      ∃ scheme, env'.get? d.name = some scheme ∧ d.HasScheme S scheme := by
  induction groups generalizing env s with
  | nil => exact nofun
  | cons group rest ih =>
      obtain ⟨hwholeFirst, hwholeRest⟩ := List.forall_mem_cons.1 hgroups
      obtain ⟨htogetherFirst, htogetherRest⟩ := List.forall_mem_cons.1 htogether
      obtain ⟨horderFirst, horderRest⟩ := List.forall_mem_cons.1 horder
      obtain ⟨hrefersFirst, hrefersRest⟩ := List.forall_mem_cons.1 hrefers
      rw [List.flatten_cons, List.map_append] at hnodup hnew
      obtain ⟨hnodupFirst, hnodupRest, hdisjoint⟩ := List.nodup_append.1 hnodup
      rw [run_inferGroups_cons] at h
      cases hgroup : (inferGroup c env group).outcome s with
      | mk r s₁ =>
          rw [hgroup] at h
          cases r with
          | error e => cases h
          | ok env₁ =>
              have h : (inferGroups c env₁ rest).run s₁ = ((env', .ok ()), s') := h
              have hu₁ : s₁.supply.Unwrapped := by
                have hgrows := (inferGroups_keeps c env₁ rest).grows s₁
                rw [Attempt.outcome_liftState, h] at hgrows
                exact hu.of_le hgrows
              obtain ⟨hs₁, henv₁, -⟩ := (inferGroup_keeps c env group).of_returns hgroup hu₁ hs
                ⟨⟨hwhole, henv⟩, hwholeFirst⟩
              have hknown₁ := knows_of_inferGroup hgroup
              have hknown' := knows_of_inferGroups (congrArg Prod.fst h)
              have hlater : ∀ name, knows env₁ name = true → name ∉ rest.flatten.map (·.name) := by
                intro name hname hmem
                rcases (hknown₁ name).1 hname with hmem' | hold
                · exact hdisjoint name hmem' name hmem rfl
                · rw [hnew name (List.mem_append_right _ hmem)] at hold
                  cases hold
              have hkept : ∀ name, knows env₁ name = true → env'.get? name = env₁.get? name := by
                intro name hname
                refine get?_of_inferGroups (congrArg Prod.fst h) fun g hg d hd heq => ?_
                exact hlater name hname (List.mem_map.2 ⟨d, List.mem_flatten_of_mem hg hd, heq⟩)
              refine List.forall_mem_cons.2 ⟨fun d hd htrusted => ?_, ?_⟩
              · have horder₁ : ∀ d ∈ group,
                    d.isFirstOrder c.registry callable (knows env₁) = true := fun d' hd' => by
                  refine Definition.isFirstOrder_of_agree
                    (horderFirst d' hd' (htogetherFirst d hd htrusted d' hd')) fun name hname => ?_
                  rw [Bool.eq_iff_iff]
                  refine ⟨fun hknows => (hknown₁ name).2 ?_, fun hknows => (hknown' name).2 (.inr hknows)⟩
                  rcases hordered [] group rest rfl d' hd' name hname hknows with hold | ⟨g, hg, hmem⟩
                  · exact .inr hold
                  · exact .inl (List.mem_singleton.1 hg ▸ hmem)
                obtain ⟨bound, subst, hsolved⟩ := solved_of_inferGroup hgroup hu₁ hs hwhole henv
                  hwholeFirst fun d hd => (Definition.isFirstOrder_iff.1 (horder₁ d hd)).1.1
                have hschemes : ∀ name ∈ d.referred, ∀ scheme, env₁.get? name = some scheme →
                    S.schemes name = some scheme := fun name hname scheme hscheme => by
                  have hget := (hkept name (by simp [knows, hscheme])).trans hscheme
                  exact hS name (hrefersFirst d hd htrusted name hname (by simp [knows, hget])) scheme
                    hget
                obtain ⟨scheme, hscheme, hbody⟩ := hsolved.hasScheme hnodupFirst henv.1 hregistry
                  hsized hd hschemes (horder₁ d hd)
                exact ⟨scheme, (hkept d.name (by simp [knows, hscheme])).trans hscheme, hbody⟩
              · refine ih h hs₁ henv₁ hwholeRest hnodupRest (fun name hname => ?_) htogetherRest
                  horderRest hrefersRest fun pre g post heq d hd name hname hknows => ?_
                · by_contra hknows
                  exact hlater name (by simpa using hknows) hname
                · rcases hordered (group :: pre) g post (congrArg (group :: ·) heq) d hd name hname
                    hknows with hold | ⟨g', hg', hmem⟩
                  · exact .inl ((hknown₁ name).2 (.inr hold))
                  · rcases List.mem_cons.1 hg' with rfl | hg'
                    · exact .inl ((hknown₁ name).2 (.inl hmem))
                    · exact .inr ⟨g', hg', hmem⟩

end Inference

end Formulary
