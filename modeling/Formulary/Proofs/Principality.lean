import Formulary.Proofs.Sessions
import Formulary.Proofs.Variants

/-!
Principal types. On the core of the language inference finds out just what the rules of typing ask
for: the type it tells is one by the rules, and every other type by the rules is an instance of it.
-/

namespace Formulary

namespace Valuation

open Classical in
/-- Where `ρ` puts variables for those of a list, the valuation that puts what `ρ'` does for them, and
otherwise what `θ` does. -/
noncomputable def meeting (θ : Valuation) (ids : List Int) (ρ ρ' : Valuation) : Valuation := fun y =>
  if h : ∃ x ∈ ids, ρ x = .var y then ρ' h.choose else θ y

variable {θ ρ ρ' : Valuation} {ids : List Int}

theorem meeting_of_mem (hinjective : ∀ x ∈ ids, ∀ y ∈ ids, ρ x = ρ y → x = y) {x y : Int}
    (hx : x ∈ ids) (hy : ρ x = .var y) : θ.meeting ids ρ ρ' y = ρ' x := by
  have hex : ∃ x ∈ ids, ρ x = .var y := ⟨x, hx, hy⟩
  have hsame := hinjective _ hex.choose_spec.1 x hx (hex.choose_spec.2.trans hy.symm)
  rw [meeting, dif_pos hex, hsame]

theorem meeting_of_forall_ne {y : Int} (h : ∀ x ∈ ids, ρ x ≠ .var y) :
    θ.meeting ids ρ ρ' y = θ y := by
  refine dif_neg ?_
  rintro ⟨x, hx, hvar⟩
  exact h x hx hvar

theorem IsMono.meeting (hθ : θ.IsMono) (hρ' : ρ'.IsMono) : (θ.meeting ids ρ ρ').IsMono := by
  intro y
  unfold Valuation.meeting
  split
  · exact hρ' _
  · exact hθ y

end Valuation

namespace Ty

/-- A closed scheme, or a monotype smaller than a number. -/
def fixedBelow (t : Ty) : Upward where
  holds n := t.schemeBelow n ∧ (t.isClosedScheme = true ∨ t.inScope n)
  mono hle h := ⟨t.schemeBelow.mono hle h.1, h.2.imp_right (t.inScope.mono hle)⟩

theorem bind_of_isClosedScheme {t : Ty} (h : t.isClosedScheme = true) (θ : Valuation) :
    t.bind θ = t := by
  simp only [isClosedScheme, Bool.and_eq_true, List.isEmpty_iff] at h
  exact bind_eq_self fun x hx => by simp [h.2] at hx

theorem bind_agree_of_fixedBelow {t : Ty} {n : Int} (h : t.fixedBelow n) {θ θ' : Valuation}
    (hagree : θ.AgreesBelow n θ') : t.bind θ = t.bind θ' := by
  rcases h.2 with hclosed | hscope
  · rw [bind_of_isClosedScheme hclosed, bind_of_isClosedScheme hclosed]
  · exact hagree.bind_eq hscope

theorem isMono_body_of_fixedBelow {t : Ty} {n : Int} (h : t.fixedBelow n) {θ : Valuation}
    (hθ : θ.IsMono) : (t.bind θ).unquantify.2.isMono = true := by
  rcases h.2 with hclosed | hscope
  · rw [bind_of_isClosedScheme hclosed]
    exact h.1.1
  · have hmono := isMono_bind hscope.1 fun x _ => hθ x
    rw [unquantify_of_isMono hmono]
    exact hmono

theorem explains_instance {t : Ty} {low high : Int} {ρ : Valuation}
    (hclosed : t.isClosedScheme = true) (hρ : Freshens t.unquantify.1 low high ρ) :
    Explains low (fun θ _ => θ.IsMono) (fun θ _ => θ.IsMono)
      (fun θ => (t.unquantify.2.bind ρ).bind θ) fun _ _ u => t.Instance u := by
  have hbody : t.unquantify.2.isMono = true := by
    simp only [isClosedScheme, Bool.and_eq_true] at hclosed
    exact hclosed.1
  have hvalue : ∀ θ : Valuation, (t.unquantify.2.bind ρ).bind θ =
      t.unquantify.2.bind fun x => (ρ x).bind θ := fun θ => bind_bind _ _ hbody
  refine ⟨fun θ D hθ => ⟨hθ, ?_⟩, fun θ D u hθ hu => ?_⟩
  · refine ⟨fun x => if x ∈ t.unquantify.1 then (ρ x).bind θ else .var x, fun x => ?_,
      fun x hx => if_neg hx, ?_⟩
    · dsimp only
      split
      · rename_i hx
        obtain ⟨y, hy, -⟩ := hρ.fresh x hx
        rw [hy, bind]
        exact hθ y
      · rfl
    · rw [hvalue]
      refine bind_congr fun x hx => ?_
      rw [if_pos (mem_unquantify_of_isClosedScheme hclosed hx)]
  · obtain ⟨ρ', hmono, -, rfl⟩ := hu
    refine ⟨θ.meeting t.unquantify.1 ρ ρ', fun y hy => ?_, hθ.meeting hmono, ?_⟩
    · refine (Valuation.meeting_of_forall_ne fun x hx hvar => ?_).symm
      obtain ⟨z, hz, hlow, -⟩ := hρ.fresh x hx
      rw [hvar, var.injEq] at hz
      omega
    · rw [hvalue]
      refine bind_congr fun x hx => ?_
      have hmem := mem_unquantify_of_isClosedScheme hclosed hx
      obtain ⟨y, hy, -⟩ := hρ.fresh x hmem
      rw [hy, bind]
      exact Valuation.meeting_of_mem hρ.injective hmem hy

end Ty

theorem instantiate_finds (t : Ty) : Finds freshView t.fixedBelow (liftM t.instantiate : Fresh Ty)
    Ty.inScope (fun u θ => u.bind θ) fun θ _ u => (t.bind θ).Instance u where
  toKeeps := (instantiate_keeps t).of_pre fun n h => h.1
  finds s u s' hrun _ hs' hpre := by
    rw [Attempt.Returns, Attempt.outcome_liftState, Prod.mk.injEq, Except.ok.injEq] at hrun
    obtain ⟨rfl, rfl⟩ := hrun
    obtain ⟨ρ, hρ, hvalue⟩ := t.instantiate_freshens s hs'
    rcases hpre.2 with hclosed | hscope
    · rw [hvalue]
      refine (Ty.explains_instance hclosed hρ).congr fun θ D u _ => ?_
      rw [Ty.bind_of_isClosedScheme hclosed]
    · have hsame : (t.instantiate.run s).1 = t := by
        rw [hvalue, Ty.unquantify_of_isMono hscope.1]
        refine Ty.bind_eq_self fun x _ => hρ.other x ?_
        rw [Ty.unquantify_of_isMono hscope.1]
        exact List.not_mem_nil
      rw [hsame]
      refine Explains.of_iff fun θ D u hθ => ?_
      exact Ty.instance_iff_eq (Ty.isMono_bind hscope.1 fun x _ => hθ x)

namespace Inference

theorem instantiate_finds (t : Ty) : Finds inferView t.fixedBelow (instantiate t) Ty.inScope
    (fun u θ => u.bind θ) fun θ _ u => (t.bind θ).Instance u :=
  fresh_finds (Formulary.instantiate_finds t)

/-- What a pattern binds is in scope, and it binds its variables. -/
def bindsVars (p : Pattern) (bindings : TypeEnv) : Upward :=
  monoEnv bindings ⊓ Known (∀ name, (bindings.get? name).isSome = true ↔ name ∈ p.vars)

theorem returns_bindPattern {c : Context} {e : Expr} {p : Pattern} {scrutinee : Ty} {s s' : State}
    {bindings : TypeEnv} (h : (bindPattern c e p scrutinee).Returns s bindings s') :
    ∃ typing supply, Attempt.Returns (p.check c.data (s.subst.apply scrutinee)) s.supply typing
      supply ∧ bindings = typing.bindings ∧ s' = State.refine { s with supply } typing.subst := by
  rw [Attempt.Returns, outcome_bindPattern] at h
  cases hcheck : Attempt.outcome (p.check c.data (s.subst.apply scrutinee)) s.supply with
  | mk r supply =>
      rw [hcheck] at h
      cases r with
      | ok typing =>
          cases h
          exact ⟨typing, supply, hcheck, rfl, rfl⟩
      | error f => cases h

theorem sound_of_check {c : Context} {p : Pattern} {scrutinee : Ty} {s : State}
    {typing : Pattern.Typing} {supply : Supply} (hs : s.Sound) (hwhole : c.data.isWhole = true)
    (hscrutinee : scrutinee.inScope s.supply.next)
    (hcheck : Attempt.Returns (p.check c.data (s.subst.apply scrutinee)) s.supply typing supply)
    (hu : supply.Unwrapped) : typing.Sound fun x => s.subst.image x = .var x := by
  have hnew : ∀ n, s.subst.inScope n → s.subst.image n = .var n := fun n hn =>
    Subst.image_of_get?_eq_none (Option.eq_none_iff_forall_ne_some.2 fun u hu =>
      Int.lt_irrefl n (hn n u hu).1)
  have hkept := (Pattern.check_keeps c.data hnew p (s.subst.apply scrutinee)).keeps s.supply
    (hcheck ▸ hu) trivial ⟨⟨hwhole, hs.subst.2⟩, Subst.within_apply hs.subst.2 hscrutinee,
      hs.subst.1.apply_within hs.subst.2.monoRange hscrutinee.1⟩
  rw [hcheck] at hkept
  exact hkept.2.2

theorem bindPattern_finds (c : Context) (e : Expr) (p : Pattern) (scrutinee : Ty) :
    Finds inferView (Known (c.data.isWhole = true) ⊓ scrutinee.inScope)
      (bindPattern c e p scrutinee) (bindsVars p) (fun bindings θ => bindings.under θ)
      fun θ _ B => p.Fits c.data .empty (scrutinee.bind θ) B := by
  have hfinds : Finds inferView (Known (c.data.isWhole = true) ⊓ scrutinee.inScope)
      (bindPattern c e p scrutinee) monoEnv (fun bindings θ => bindings.under θ)
      fun θ _ B => p.Fits c.data .empty (scrutinee.bind θ) B := by
    refine ⟨bindPattern_keeps c e p scrutinee, fun s bindings s' hrun hs hs' hpre => ?_⟩
    obtain ⟨typing, supply, hcheck, rfl, rfl⟩ := returns_bindPattern hrun
    have hknown : (s.subst.apply scrutinee).inScope s.supply.next :=
      Subst.within_apply hs.subst.2 hpre.2
    have hexplains := Pattern.check_explains hcheck hs' hknown
    have hsolves : ∀ θ : Valuation, θ.Solves (s.subst.compose typing.subst) ↔
        θ.Solves s.subst ∧ θ.Solves typing.subst := fun θ =>
      Valuation.solves_compose hs.subst.2.monoRange
        (sound_of_check hs hpre.1 hpre.2 hcheck hs').subst
    refine ⟨fun θ D hθ => ?_, fun θ D B hθ hfits => ?_⟩
    · obtain ⟨hsubst, htyping⟩ := (hsolves θ).1 hθ.subst
      refine ⟨⟨hθ.mono, hθ.naming, hsubst, hθ.free⟩, ?_⟩
      rw [← hsubst.bind_apply hpre.2.1]
      exact (hexplains.sound θ D ⟨hθ.mono, htyping⟩).2
    · rw [← hθ.subst.bind_apply hpre.2.1] at hfits
      obtain ⟨θ', hagree, htyping, hvalue⟩ := hexplains.complete θ D B hθ.mono hfits
      have hadmits := hθ.of_agreesBelow hs hagree htyping.1
      exact ⟨θ', hagree, ⟨htyping.1, hθ.naming, (hsolves θ').2 ⟨hadmits.subst, htyping.2⟩,
        hadmits.free⟩, hvalue⟩
  refine hfinds.and_known fun s bindings s' hrun hs hs' hpre name => ?_
  obtain ⟨typing, supply, hcheck, rfl, rfl⟩ := returns_bindPattern hrun
  have hsound := sound_of_check hs hpre.1 hpre.2 hcheck hs'
  obtain ⟨-, hfits⟩ := (Pattern.check_explains hcheck hs'
    (Subst.within_apply hs.subst.2 hpre.2)).sound typing.subst.image .empty
    ⟨hsound.subst.monoRange, hsound.settled.bind_image⟩
  have hvars := hfits.isSome_iff name
  simpa [TypeEnv.under, Naming.empty] using hvars

theorem bindFields_finds (c : Context) (v : VariantInstance) (index : Nat)
    (fields : List FieldInstance) (args : List (Expr × Ty)) (hlength : args.length = fields.length)
    (hkinds : ∀ f ∈ fields, f.kind = .type) :
    Finds inferView (fieldsInScope fields ⊓ argsInScope args) (bindFields c v index fields args)
      (fun _ => ⊤) (fun _ _ => ())
      fun θ _ _ => fields.map (·.type.bind θ) = args.map (·.2.bind θ) := by
  induction fields generalizing index args with
  | nil =>
      obtain rfl : args = [] := List.eq_nil_of_length_eq_zero hlength
      rw [bindFields]
      · exact Finds.pure (fun _ _ => trivial) fun s _ _ θ D u _ => by simp
      · simp
  | cons field fields ih =>
      cases args with
      | nil => cases hlength
      | cons arg args =>
          rw [bindFields]
          have hkind : field.kind = .type := hkinds field (List.mem_cons_self ..)
          have hfield : bindField c v index field arg.1 arg.2 = unify c field.type arg.2 := by
            unfold bindField
            exact if_pos hkind
          rw [hfield]
          refine Finds.congr ((unify_finds c field.type arg.2).before
            (fun n h => ⟨(every_cons.1 h.1).1, (every_cons.1 h.2).1⟩)
            (fun _ => (ih (index + 1) args (Nat.succ.inj hlength)
              fun f hf => hkinds f (List.mem_cons_of_mem _ hf)).of_pre fun n h =>
                ⟨(every_cons.1 h.1.1).2, (every_cons.1 h.1.2).2⟩)
            fun n h θ θ' hagree => ?_) fun s _ _ θ D u _ => ?_
          · have hfields : fields.map (·.type.bind θ) = fields.map (·.type.bind θ') :=
              List.map_congr_left fun f hf => hagree.bind_eq (h.1 f (List.mem_cons_of_mem _ hf))
            have hargs : args.map (·.2.bind θ) = args.map (·.2.bind θ') :=
              List.map_congr_left fun a ha => hagree.bind_eq (h.2 a (List.mem_cons_of_mem _ ha))
            rw [hfields, hargs]
          · rw [List.map_cons, List.map_cons, List.cons.injEq]

theorem inferConstruction_finds (c : Context) (e : Expr) (name : String) (args : List (Expr × Ty))
    (hplain : c.data.isPlain name = true) :
    Finds inferView (Known (c.data.isWhole = true) ⊓ argsInScope args)
      (inferConstruction c e name args) Ty.inScope (fun t θ => t.bind θ)
      fun θ _ t => c.data.Builds name (args.map (·.2.bind θ)) t := by
  have hvariant := (c.data.instantiate_finds name).and_known
    fun s v s' hrun _ _ _ => DataTypes.fields_of_isPlain hplain hrun
  unfold inferConstruction
  refine Finds.congr ((blaming_finds (fresh_finds hvariant)).followedBy (K := fun θ b _ t =>
    b.1 = args.map (·.2.bind θ) ∧ t = b.2) (fun n h => h.1) (fun v => ?_)
    fun n h θ θ' hagree => ?_) fun s _ _ θ D t _ => ?_
  · refine Finds.of_known ((arguments_keeps c e name args v).of_pre fun n h => ⟨h.2.1, h.1.2⟩)
      (fun n h => h.2.2) fun hplain => ?_
    refine Finds.iteOf (fun hlength => ?_) fun _ => Finds.iteOf (fun hshaped => ?_) fun _ => ?_
    · refine (blaming_finds (bindFields_finds c v 0 v.fields args hlength hplain.2)).before
        (fun n h => ⟨h.2.1.2, h.1.2⟩) (fun _ => (known_finds v.result).of_pre fun n h => h.1.2.1.1)
        fun n h θ θ' hagree => ?_
      rw [hagree.bind_eq h.2.1.1]
    · simp only [areElements, VariantInstance.isShaped, Bool.and_eq_true,
        decide_eq_true_eq] at hshaped
      exact absurd hshaped.1.1.1.1 hplain.1
    · rw [failAt_bind]
      exact failAt_finds fun _ _ => by simp [Fault.IsOrdinary, Fault.kind]
  · have hargs : args.map (·.2.bind θ) = args.map (·.2.bind θ') :=
      List.map_congr_left fun a ha => hagree.bind_eq (h.2 a ha)
    rw [hargs]
  · constructor
    · rintro ⟨⟨ts, u⟩, hbuilds, rfl, rfl⟩
      exact hbuilds
    · intro hbuilds
      exact ⟨(_, t), hbuilds, rfl, rfl⟩

theorem unifyFor_finds (c : Context) (requirer : Requirer) (e : Expr) (a b : Ty) :
    Finds inferView (a.inScope ⊓ b.inScope) (unifyFor c requirer e a b) (fun _ => ⊤) (fun _ _ => ())
      fun θ _ _ => a.bind θ = b.bind θ where
  toKeeps := unifyFor_keeps c requirer e a b
  finds s u s' hrun hs hs' hpre := by
    refine (unify_finds c a b).finds s u s' ?_ hs hs' hpre
    rw [Attempt.Returns, unifyFor, Attempt.outcome_tryCatch] at hrun
    cases hunify : (unify c a b).outcome s with
    | mk r s₁ =>
        rw [hunify] at hrun
        cases r with
        | ok a => exact hunify.trans hrun
        | error f => cases hrun

theorem bind_curry (ts : List Ty) (t : Ty) (θ : Valuation) :
    (Ty.curry ts t).bind θ = Ty.curry (ts.map (·.bind θ)) (t.bind θ) := by
  induction ts with
  | nil => rfl
  | cons a ts ih =>
      have hcons : Ty.curry (a :: ts) t = .fn a (Ty.curry ts t) := rfl
      rw [hcons, Ty.bind, ih]
      rfl

/-- What is left of a call once it is known what is applied. -/
def applyTo (c : Context) (e : Expr) (requirer : Requirer) (fn : Ty) (args : List Ty) : Infer Ty := do
  let result ← freshVar
  unifyFor c requirer e fn (Ty.curry args result)
  known result

/-- What is applied has a function type from the types of the arguments. -/
theorem applyTo_finds (c : Context) (e : Expr) (requirer : Requirer) (fn : Ty) (args : List Ty) :
    Finds inferView (fn.inScope ⊓ Every Ty.inScope args) (applyTo c e requirer fn args) Ty.inScope
      (fun u θ => u.bind θ)
      fun θ _ u => u.isMono = true ∧ fn.bind θ = Ty.curry (args.map (·.bind θ)) u := by
  refine Finds.congr (freshVar_finds.bind (K := fun θ r _ u =>
    fn.bind θ = Ty.curry (args.map (·.bind θ)) r ∧ u = r) (fun result => ?_)
    fun n h θ θ' hagree => ?_) fun s _ _ θ D u _ => ?_
  · refine Finds.congr ((unifyFor_finds c requirer e fn (Ty.curry args result)).before (fun n h =>
      ⟨h.1.1, Ty.within_curry.2 ⟨h.1.2, h.2⟩⟩)
      (fun _ => (known_finds result).of_pre fun n h => h.1.2) fun n h θ θ' hagree => ?_)
      fun s _ _ θ D u _ => ?_
    · rw [hagree.bind_eq h.2]
    · rw [bind_curry]
  · rw [hagree.bind_eq h.1, hagree.map_bind_eq h.2]
  · constructor
    · rintro ⟨r, hmono, hsame, rfl⟩
      exact ⟨hmono, hsame⟩
    · rintro ⟨hmono, hsame⟩
      exact ⟨u, hmono, hsame, rfl⟩

theorem inferApplication_finds (c : Context) (e : Expr) (name : String) (t : Ty) (args : List Ty) :
    Finds inferView (t.fixedBelow ⊓ Every Ty.inScope args) (inferApplication c e name t args)
      Ty.inScope (fun u θ => u.bind θ)
      fun θ _ u => (t.bind θ).Instance (Ty.curry (args.map (·.bind θ)) u) := by
  unfold inferApplication
  refine Finds.congr ((instantiate_finds t).followedBy (K := fun θ fn _ u =>
    u.isMono = true ∧ fn = Ty.curry (args.map (·.bind θ)) u) (fun n h => h.1) (fun fn => ?_)
    fun n h θ θ' hagree => ?_) fun s _ hpre θ D u hθ => ?_
  · have hrest := applyTo_finds c e (.function name) fn args
    refine Finds.congr ((known_finds fn).followedBy (K := fun θ _ _ u =>
      u.isMono = true ∧ fn.bind θ = Ty.curry (args.map (·.bind θ)) u) (fun n h => h.2) (fun fn' => ?_)
      fun n h θ θ' hagree => ?_) fun s _ _ θ D u _ => ?_
    · split
      · refine Finds.iteOf (fun _ => ?_) fun _ => hrest.of_pre fun n h => ⟨h.1.2, h.1.1.2⟩
        rw [failAt_bind]
        exact failAt_finds fun _ _ => by simp [Fault.IsOrdinary, Fault.kind]
      · exact hrest.of_pre fun n h => ⟨h.1.2, h.1.1.2⟩
    · rw [hagree.bind_eq h.2, hagree.map_bind_eq h.1.2]
    · simp
  · rw [hagree.map_bind_eq h.2]
  · constructor
    · rintro ⟨fn, hinstance, -, rfl⟩
      exact hinstance
    · intro hinstance
      have hmono := hinstance.isMono (Ty.isMono_body_of_fixedBelow hpre.1 hθ.mono)
      exact ⟨_, hinstance, (Ty.within_curry (F := fun _ => True)).1 ⟨hmono, fun _ _ => trivial⟩ |>.2.1,
        rfl⟩

/-- The types of an environment are closed schemes, or monotypes in scope. -/
def fixedEnv (env : TypeEnv) : Upward where
  holds n := ∀ name t, env.get? name = some t → t.fixedBelow n
  mono hle h name t ht := t.fixedBelow.mono hle (h name t ht)

theorem under_agree {env : TypeEnv} {n : Int} (h : fixedEnv env n) {θ θ' : Valuation}
    (hagree : θ.AgreesBelow n θ') : env.under θ = env.under θ' :=
  TypeEnv.under_congr fun name t ht => Ty.bind_agree_of_fixedBelow (h name t ht) hagree

/-- What inference starts from, where it is to find principal types. -/
def prepared (c : Context) (env : TypeEnv) : Upward :=
  Known (c.registry.isWhole = true) ⊓ fixedEnv env

theorem prepared_ready {c : Context} {env : TypeEnv} {n : Int} (h : prepared c env n) :
    ready c env n :=
  ⟨h.1, fun name t ht => (h.2 name t ht).1⟩

/-- Whether an environment knows a name. -/
def knows (env : TypeEnv) (name : String) : Bool := (env.get? name).isSome

theorem knows_extend {env bindings : TypeEnv} {p : Pattern}
    (h : ∀ name, (bindings.get? name).isSome = true ↔ name ∈ p.vars) :
    knows (env.extend bindings.entries) = fun name => p.vars.contains name || knows env name := by
  funext name
  rw [knows, TypeEnv.get?_extend, Option.isSome_or, Bool.eq_iff_iff]
  simp [h, knows]

theorem fixedEnv_extend {env bindings : TypeEnv} {n : Int} (h : fixedEnv env n)
    (hbindings : monoEnv bindings n) : fixedEnv (env.extend bindings.entries) n := by
  intro name t ht
  rw [TypeEnv.get?_extend, Option.or_eq_some_iff] at ht
  rcases ht with ht | ⟨-, ht⟩
  · have hscope := hbindings (name, t) ((SortedMap.get?_eq_some_iff _ _ _).1 ht)
    exact ⟨Ty.schemeBelow_of_inScope hscope, .inr hscope⟩
  · exact h name t ht

theorem inferName_finds (c : Context) (env : TypeEnv) (name : String)
    (hcore : (Expr.object name).isCore c.registry (knows env) = true) :
    Finds inferView (prepared c env) (inferName c env name) Ty.inScope (fun t θ => t.bind θ)
      fun θ D t => HasType c.registry D (env.under θ) (.object name) t := by
  unfold inferName
  cases hget : env.get? name with
  | some t =>
      have hunder : ∀ θ : Valuation, env.under θ name = some (t.bind θ) := fun θ => by
        rw [TypeEnv.under, hget, Option.map_some]
      refine Finds.congr ((instantiate_finds t).of_pre fun n h => h.2 name t hget)
        fun s _ _ θ D u _ => ?_
      constructor
      · exact .bound (hunder θ)
      · intro h
        cases h with
        | bound hname hinstance =>
            rw [hunder, Option.some.injEq] at hname
            exact hname ▸ hinstance
        | constructor hname => simp [hunder] at hname
        | free hname => simp [hunder] at hname
  | none =>
      have hunder : ∀ θ : Valuation, env.under θ name = none := fun θ => by
        rw [TypeEnv.under, hget, Option.map_none]
      have hknows : knows env name = false := by simp [knows, hget]
      have hfree : c.registry.isOpen name = true → Finds inferView (prepared c env) (freeName name)
          Ty.inScope (fun t θ => t.bind θ)
          fun θ D t => HasType c.registry D (env.under θ) (.object name) t := by
        intro hopen
        refine Finds.congr (freeName_finds name) fun s _ _ θ D t _ => ?_
        constructor
        · exact .free (hunder θ) hopen
        · intro h
          cases h with
          | bound hname => simp [hunder] at hname
          | constructor _ hbuilds =>
              obtain ⟨d, written, hvariant⟩ := hbuilds.variant_of_nil
              simp [Registry.isOpen, hvariant] at hopen
          | free _ _ hD => exact hD
      dsimp only
      rcases Expr.isOpen_or_of_isCore hcore hknows with hopen | ⟨d, written, hvariant, howner⟩
      · split
        · rename_i hvariant
          have hvariant : c.registry.data.variant? name = _ := hvariant
          simp [Registry.isOpen, hvariant] at hopen
        · rename_i hop hvariant
          refine Finds.iteOf (fun hempty => ?_) fun _ => hfree hopen
          simp [Registry.isEmpty_of_isOpen hopen hop] at hempty
        · exact hfree hopen
      · have hplain : c.data.isPlain name = true := by
          simp [DataTypes.isPlain, Context.data, hvariant, howner]
        have hclosed : c.registry.isOpen name = false := by simp [Registry.isOpen, hvariant]
        rw [show c.data.variant? name = some (d, ⟨written, []⟩) from hvariant]
        refine Finds.congr ((inferConstruction_finds c (.object name) name [] hplain).of_pre
          fun n h => ⟨Registry.isWhole_data h.1, every_nil _ n⟩) fun s _ _ θ D t _ => ?_
        constructor
        · exact .constructor (hunder θ)
        · intro h
          cases h with
          | bound hname => simp [hunder] at hname
          | constructor _ hbuilds => exact hbuilds
          | free _ hopen => simp [hclosed] at hopen

theorem map_zip_bind {args : List Expr} {types : List Ty} (h : types.length = args.length)
    (θ : Valuation) : (args.zip types).map (·.2.bind θ) = types.map (·.bind θ) := by
  calc (args.zip types).map (·.2.bind θ)
      = ((args.zip types).map (·.2)).map (·.bind θ) := by rw [List.map_map]; rfl
    _ = types.map (·.bind θ) := by rw [List.map_snd_zip (Nat.le_of_eq h)]

theorem inferCall_finds (c : Context) (env : TypeEnv) (name : String) (args : List Expr)
    (types : List Ty) (hlength : types.length = args.length)
    (hcore : (if (c.data.variant? name).isSome then c.data.isPlain name else knows env name) = true) :
    Finds inferView (prepared c env ⊓ Every Ty.inScope types) (inferCall c env name args types)
      Ty.inScope (fun t θ => t.bind θ) fun θ _ t =>
        c.data.Builds name (types.map (·.bind θ)) t ∨ c.data.variant? name = none ∧
          ∃ scheme, env.under θ name = some scheme ∧
            scheme.Instance (Ty.curry (types.map (·.bind θ)) t) := by
  unfold inferCall
  refine Finds.iteOf (fun hvariant => ?_) fun hvariant => ?_
  · rw [if_pos hvariant] at hcore
    refine Finds.congr ((inferConstruction_finds c _ name (args.zip types) hcore).of_pre
      fun n h => ⟨Registry.isWhole_data h.1.1, fun a ha => h.2 a.2 (List.of_mem_zip ha).2⟩)
      fun s _ _ θ D t _ => ?_
    rw [map_zip_bind hlength]
    constructor
    · exact .inl
    · rintro (hbuilds | ⟨hnone, -⟩)
      · exact hbuilds
      · simp [hnone] at hvariant
  · rw [if_neg hvariant] at hcore
    obtain ⟨t, ht⟩ := Option.isSome_iff_exists.1 hcore
    have hnone : c.data.variant? name = none := by simpa using hvariant
    rw [ht]
    refine Finds.congr ((inferApplication_finds c _ name t types).of_pre
      fun n h => ⟨h.1.2 name t ht, h.2⟩) fun s _ _ θ D u _ => ?_
    have hunder : env.under θ name = some (t.bind θ) := by
      rw [TypeEnv.under, ht, Option.map_some]
    constructor
    · exact fun hinstance => .inr ⟨hnone, _, hunder, hinstance⟩
    · rintro (hbuilds | ⟨-, scheme, hscheme, hinstance⟩)
      · exact absurd hnone hbuilds.ne_none
      · rw [hunder, Option.some.injEq] at hscheme
        exact hscheme ▸ hinstance

theorem outcomeOfMatch_finds (c : Context) (e : Expr) (ps : List Pattern) (t : Ty)
    (result : Option Ty) :
    Finds inferView (t.inScope ⊓ (Every Ty.inScope result.toList ⊓ Known (result.isSome = true)))
      (do
        reviewCases c e (← known t) ps
        known (result.getD .blank) : Infer Ty) Ty.inScope (fun u θ => u.bind θ)
      fun θ _ u => result.map (·.bind θ) = some u := by
  have hresult : ∀ n, (Every Ty.inScope result.toList ⊓ Known (result.isSome = true)) n →
      (result.getD .blank).inScope n := by
    rintro n ⟨hscope, hsome⟩
    obtain ⟨u, rfl⟩ := Option.isSome_iff_exists.1 hsome
    exact hscope u (by simp)
  refine Finds.congr ((known_finds t).followedBy (K := fun θ _ _ u =>
    u = (result.getD .blank).bind θ) (fun n h => h.1) (fun t' => ?_)
    fun n h θ θ' hagree => ?_) fun s _ hpre θ D u _ => ?_
  · refine Finds.congr (((reviewCases_quiet c e t' ps).finds (reviewCases_keeps c e t' ps)).before
      (fun n h => h) (fun _ => (known_finds _).of_pre fun n h => hresult n h.1.1.2)
      fun n h θ θ' hagree => ?_) fun s _ _ θ D u _ => ?_
    · rw [hagree.bind_eq (hresult n h.1.2)]
    · rw [true_and]
  · rw [hagree.bind_eq (hresult n h.2)]
  · obtain ⟨v, rfl⟩ := Option.isSome_iff_exists.1 hpre.2.2
    simp [eq_comm]

/-- The cases of a match, where the cases before have a type or there is a case. -/
def HasResult (r : Registry) (D Γ : Naming) (scrutinee : Ty) (cases : List (Pattern × Expr))
    (before : Option Ty) (result : Option Ty) : Prop :=
  ∃ t, result = some t ∧ HasCases r D Γ scrutinee cases t ∧ ∀ u, before = some u → t = u

mutual

/-- Inference finds out just what the rules of typing ask for. -/
theorem infer_finds (c : Context) (env : TypeEnv) (e : Expr)
    (hcore : e.isCore c.registry (knows env) = true) :
    Finds inferView (prepared c env) (infer c env e) Ty.inScope (fun t θ => t.bind θ)
      fun θ D t => HasType c.registry D (env.under θ) e t := by
  cases e with
  | blank => cases hcore
  | const value =>
      refine Finds.pure (fun _ _ => Ty.within_scalar) fun s _ _ θ D t _ => ?_
      constructor
      · intro h
        cases h
        rfl
      · rintro rfl
        exact .const
  | object name => exact inferName_finds c env name hcore
  | operation name args =>
      rw [Expr.isCore, Bool.and_eq_true] at hcore
      rw [infer]
      refine Finds.congr ((inferList_finds c env args hcore.2).bind (K := fun θ ts _ t =>
        c.data.Builds name ts t ∨ c.data.variant? name = none ∧ ∃ scheme,
          env.under θ name = some scheme ∧ scheme.Instance (Ty.curry ts t)) (fun types => ?_)
        fun n h θ θ' hagree => ?_) fun s _ _ θ D t _ => ?_
      · refine Finds.of_known ((inferCall_keeps c env name args types).of_pre fun n h =>
          ⟨prepared_ready h.1, h.2.1⟩) (fun n h => h.2.2) fun hlength => ?_
        exact (inferCall_finds c env name args types hlength hcore.1).of_pre fun n h => ⟨h.1, h.2.1⟩
      · rw [under_agree h.2 hagree]
      · constructor
        · rintro ⟨ts, hargs, hbuilds | ⟨hnone, scheme, hscheme, hinstance⟩⟩
          · exact .construction hargs hbuilds
          · exact .call hnone hscheme hargs hinstance
        · intro h
          cases h with
          | construction hargs hbuilds => exact ⟨_, hargs, .inl hbuilds⟩
          | call hnone hscheme hargs hinstance =>
              exact ⟨_, hargs, .inr ⟨hnone, _, hscheme, hinstance⟩⟩
  | matching scrutinee cases =>
      rw [Expr.isCore, Bool.and_eq_true] at hcore
      rw [infer]
      refine Finds.iteOf (fun _ => ?_) fun hempty => ?_
      · rw [failAt_bind]
        exact failAt_finds fun _ _ => by simp [Fault.IsOrdinary, Fault.kind]
      · have hsome : cases ≠ [] := by simpa using hempty
        refine Finds.congr ((infer_finds c env scrutinee hcore.1).bind (K := fun θ s D t =>
          HasCases c.registry D (env.under θ) s cases t) (fun t => ?_)
          fun n h θ θ' hagree => ?_) fun s _ _ θ D t _ => ?_
        · refine Finds.congr ((inferCases_finds c env (.matching scrutinee cases) t none cases
            hcore.2 (.inr hsome)).followedBy (K := fun _ r _ u => r = some u)
            (fun n h => ⟨h.1, h.2, every_nil _ n⟩) (fun result => ?_) fun _ _ _ _ _ => rfl)
            fun s _ _ θ D u _ => ?_
          · refine Finds.of_pre (outcomeOfMatch_finds c _ _ t result) fun n h => ?_
            exact ⟨h.1.2, h.2⟩
          · constructor
            · rintro ⟨_, ⟨u', rfl, hcases, -⟩, heq⟩
              cases heq
              exact hcases
            · intro hcases
              exact ⟨_, ⟨u, rfl, hcases, fun _ h => by cases h⟩, rfl⟩
        · rw [under_agree h.2 hagree]
        · constructor
          · rintro ⟨s, hscrutinee, hcases⟩
            exact .matching hscrutinee hsome hcases
          · intro h
            cases h with
            | matching hscrutinee _ hcases => exact ⟨_, hscrutinee, hcases⟩

theorem inferList_finds (c : Context) (env : TypeEnv) (es : List Expr)
    (hcore : Expr.isCoreList c.registry (knows env) es = true) :
    Finds inferView (prepared c env) (inferList c env es)
      (fun ts => Every Ty.inScope ts ⊓ Known (ts.length = es.length))
      (fun ts θ => ts.map (·.bind θ))
      fun θ D ts => HasTypes c.registry D (env.under θ) es ts := by
  cases es with
  | nil =>
      refine Finds.pure (fun n _ => ⟨every_nil _ n, rfl⟩) fun s _ _ θ D ts _ => ?_
      constructor
      · intro h
        cases h
        rfl
      · rintro rfl
        exact .nil
  | cons e es =>
      rw [Expr.isCoreList, Bool.and_eq_true] at hcore
      rw [inferList]
      refine Finds.congr ((infer_finds c env e hcore.1).bind (K := fun θ t D ts => ∃ us,
        HasTypes c.registry D (env.under θ) es us ∧ ts = t :: us) (fun t => ?_)
        fun n h θ θ' hagree => ?_) fun s _ _ θ D ts _ => ?_
      · refine (inferList_finds c env es hcore.2).followedBy (K := fun θ us _ ts =>
          ts = t.bind θ :: us) (fun n h => h.1) (fun us => ?_) fun n h θ θ' hagree => ?_
        · exact Finds.pure (fun n h => ⟨every_cons.2 ⟨h.1.2, h.2.1⟩, congrArg (· + 1) h.2.2⟩)
            fun s _ _ θ D ts _ => Iff.rfl
        · rw [hagree.bind_eq h.2]
      · rw [under_agree h.2 hagree]
      · constructor
        · rintro ⟨t, ht, us, hus, rfl⟩
          exact .cons ht hus
        · intro h
          cases h with
          | cons ht hus => exact ⟨_, ht, _, hus, rfl⟩

/-- The variables of a pattern are known in its case only. -/
theorem inferCases_finds (c : Context) (env : TypeEnv) (e : Expr) (scrutinee : Ty)
    (result : Option Ty) (cases : List (Pattern × Expr))
    (hcore : Expr.isCoreCases c.registry (knows env) cases = true)
    (hsome : result.isSome = true ∨ cases ≠ []) :
    Finds inferView (prepared c env ⊓ (scrutinee.inScope ⊓ Every Ty.inScope result.toList))
      (inferCases c env e scrutinee result cases)
      (fun r => Every Ty.inScope r.toList ⊓ Known (r.isSome = true))
      (fun r θ => r.map (·.bind θ))
      fun θ D r => HasResult c.registry D (env.under θ) (scrutinee.bind θ) cases
        (result.map (·.bind θ)) r := by
  match cases with
  | [] =>
      rw [inferCases]
      have hsome : result.isSome = true := by simpa using hsome
      refine Finds.pure (fun n h => ⟨h.2.2, hsome⟩) fun s _ _ θ D r _ => ?_
      obtain ⟨u, rfl⟩ := Option.isSome_iff_exists.1 hsome
      constructor
      · rintro ⟨t, rfl, -, hsame⟩
        rw [hsame _ rfl]
        rfl
      · rintro rfl
        exact ⟨_, rfl, .nil, fun v hv => Option.some.inj hv⟩
  | (p, body) :: rest =>
      rw [Expr.isCoreCases, Bool.and_eq_true] at hcore
      rw [inferCases]
      refine Finds.congr ((bindPattern_finds c e p scrutinee).followedBy (K := fun θ B D r => ∃ t,
        HasType c.registry D ((env.under θ).over B) body t ∧
          HasResult c.registry D (env.under θ) (scrutinee.bind θ) rest (some t) r ∧
          ∀ u, result.map (·.bind θ) = some u → t = u)
        (fun n h => ⟨Registry.isWhole_data h.1.1, h.2.1⟩) (fun bindings => ?_)
        fun n h θ θ' hagree => ?_) fun s _ _ θ D r _ => ?_
      · have hbody : Finds inferView (prepared c env ⊓ (scrutinee.inScope ⊓
            Every Ty.inScope result.toList) ⊓ bindsVars p bindings)
            (infer c (env.extend bindings.entries) body) Ty.inScope (fun t θ => t.bind θ)
            fun θ D t =>
              HasType c.registry D ((env.under θ).over (bindings.under θ)) body t := by
          have hpre : ∀ n, (prepared c env ⊓ (scrutinee.inScope ⊓ Every Ty.inScope result.toList) ⊓
              bindsVars p bindings) n → prepared c (env.extend bindings.entries) n := fun n h =>
            ⟨h.1.1.1, fixedEnv_extend h.1.1.2 h.2.1⟩
          refine Finds.of_known ((infer_keeps c _ body).of_pre fun n h =>
            ⟨prepared_ready (hpre n h), Expr.isWhole_of_isCore hcore.1⟩) (fun n h => h.2.2)
            fun hvars => ?_
          rw [← knows_extend hvars] at hcore
          refine Finds.congr ((infer_finds c _ body hcore.1).of_pre hpre) fun s _ _ θ D t _ => ?_
          rw [TypeEnv.under_extend]
        refine Finds.congr (hbody.bind (K := fun θ t D r =>
          HasResult c.registry D (env.under θ) (scrutinee.bind θ) rest (some t) r ∧
            ∀ u, result.map (·.bind θ) = some u → t = u) (fun t => ?_)
          fun n h θ θ' hagree => ?_) fun s _ _ θ D r _ => Iff.rfl
        · cases result with
          | none =>
              refine Finds.congr (Finds.of_pre (inferCases_finds c env e scrutinee (some t) rest
                hcore.2 (.inl rfl)) fun n h => ?_) fun s _ _ θ D r _ => ?_
              · exact ⟨h.1.1.1, h.1.1.2.1, every_cons.2 ⟨h.2, every_nil _ n⟩⟩
              · simp
          | some result =>
              refine Finds.congr ((blaming_finds (unify_finds c result t)).before
                (K := fun θ D r => HasResult c.registry D (env.under θ) (scrutinee.bind θ) rest
                  (some (result.bind θ)) r) (fun n h => ⟨h.1.1.2.2 result (by simp), h.2⟩)
                (fun _ => Finds.of_pre (inferCases_finds c env e scrutinee (some result) rest
                  hcore.2 (.inl rfl)) fun n h => h.1.1.1)
                fun n h θ θ' hagree => ?_) fun s _ _ θ D r _ => ?_
              · rw [under_agree h.1.1.1.2 hagree, hagree.bind_eq h.1.1.2.1,
                  hagree.bind_eq (h.1.1.2.2 result (by simp))]
              · constructor
                · rintro ⟨hsame, hrest⟩
                  exact ⟨hsame ▸ hrest, fun u hu => hsame ▸ Option.some.inj hu⟩
                · rintro ⟨hrest, hbefore⟩
                  have hsame : t.bind θ = result.bind θ := hbefore _ rfl
                  exact ⟨hsame.symm, hsame ▸ hrest⟩
        · rw [under_agree h.1.1.2 hagree, hagree.bind_eq h.1.2.1, hagree.option_bind_eq h.1.2.2]
      · rw [under_agree h.1.2 hagree, hagree.bind_eq h.2.1, hagree.option_bind_eq h.2.2]
      · constructor
        · rintro ⟨B, hp, t, hbody, ⟨t', rfl, hrest, hsame⟩, hbefore⟩
          obtain rfl := hsame t rfl
          exact ⟨t', rfl, .cons hp hbody hrest, hbefore⟩
        · rintro ⟨t, rfl, hcases, hbefore⟩
          cases hcases with
          | cons hp hbody hrest =>
              exact ⟨_, hp, t, hbody, ⟨t, rfl, hrest, fun v hv => Option.some.inj hv⟩, hbefore⟩

end

/-- What is left to do once the type of an expression has been inferred. -/
def settleType (c : Context) (e : Expr) (t : Ty) : Infer Ty := do
  blaming e requireIdempotent
  let t ← known t
  if c.trace then
    log ("infer " ++ e.render ++ " : " ++ t.render ++ " (" ++ toString (← get).supply.count ++
      " type-variables)")
  return t

theorem inferExpr_eq (c : Context) (env : TypeEnv) {e : Expr} (he : e ≠ .blank) :
    inferExpr c env e = (do
      modify State.reset
      let t ← infer c env e
      settleType c e t) := by
  cases e with
  | blank => exact absurd rfl he
  | const | object | operation | matching => rfl

theorem outcome_inferExpr (c : Context) (env : TypeEnv) {e : Expr} (he : e ≠ .blank) (s : State) :
    (inferExpr c env e).outcome s = (infer c env e >>= settleType c e).outcome s.reset := by
  rw [inferExpr_eq c env he]
  rfl

theorem outcome_requireIdempotent (s : State) : requireIdempotent.outcome s =
    (if s.subst.isIdempotent then .ok () else .error (.notIdempotent s.subst), s) := by
  rw [requireIdempotent, Attempt.outcome_bind, Attempt.outcome_get]
  dsimp only
  cases s.subst.isIdempotent with
  | true => rfl
  | false => rfl

theorem outcome_settleType (c : Context) (e : Expr) (t : Ty) {s : State}
    (hs : s.subst.isIdempotent = true) :
    ∃ lines, (settleType c e t).outcome s = (.ok (s.subst.apply t), { s with log := lines }) := by
  have hblaming : (blaming e requireIdempotent).outcome s = (.ok (), s) := by
    rw [outcome_blaming, outcome_requireIdempotent, if_pos hs]
  rw [settleType, Attempt.outcome_bind, hblaming]
  dsimp only
  cases htrace : c.trace with
  | true => exact ⟨_, rfl⟩
  | false => exact ⟨s.log, rfl⟩

theorem isIdempotent_of_settleType {c : Context} {e : Expr} {t u : Ty} {s s' : State}
    (h : (settleType c e t).Returns s u s') : s.subst.isIdempotent = true := by
  obtain ⟨_, s₁, hblaming, -⟩ := Attempt.returns_bind_iff.1 h
  by_contra hnot
  rw [Attempt.Returns, outcome_blaming, outcome_requireIdempotent, if_neg hnot] at hblaming
  cases hblaming

/-- The type of an expression on its own is inferred from nothing, and told as far as it is known in
the end. -/
theorem returns_inferExpr {c : Context} {env : TypeEnv} {e : Expr} {s s' : State} {t : Ty}
    (h : (inferExpr c env e).Returns s t s') :
    ∃ u s₁, (infer c env e).Returns s.reset u s₁ ∧ t = s₁.subst.apply u ∧
      ∃ lines, s' = { s₁ with log := lines } := by
  have he : e ≠ .blank := by
    rintro rfl
    cases h
  rw [Attempt.Returns, outcome_inferExpr c env he] at h
  obtain ⟨u, s₁, hinfer, h⟩ := Attempt.returns_bind_iff.1 h
  obtain ⟨lines, houtcome⟩ := outcome_settleType c e u (isIdempotent_of_settleType h)
  rw [Attempt.Returns, houtcome, Prod.mk.injEq, Except.ok.injEq] at h
  exact ⟨u, s₁, hinfer, h.1.symm, lines, h.2.symm⟩

end Inference

/-- A naming and a type of an expression that every other naming and type of it are instances of. -/
structure IsPrincipal (r : Registry) (Γ : Naming) (e : Expr) (D : Naming) (t : Ty) : Prop where
  naming : D.IsMono
  typed : HasType r D Γ e t
  general : ∀ D' t', D'.IsMono → HasType r D' Γ e t' → ∃ θ : Valuation, θ.IsMono ∧
    t' = t.bind θ ∧ ∀ name u, D name = some u → D' name = some (u.bind θ)

namespace Inference

theorem prepared_of_isClosed {c : Context} {env : TypeEnv} (hwhole : c.registry.isWhole = true)
    (h : env.IsClosed) (n : Int) : prepared c env n :=
  ⟨hwhole, fun name t ht => ⟨h.inScope n name t ht, .inl (h name t ht)⟩⟩

theorem under_of_isClosed {env : TypeEnv} (h : env.IsClosed) (θ : Valuation) :
    env.under θ = env.get? := by
  funext name
  cases hget : env.get? name with
  | none => rw [TypeEnv.under, hget, Option.map_none]
  | some t => rw [TypeEnv.under, hget, Option.map_some, Ty.bind_of_isClosedScheme (h name t hget)]

/-- The names that nothing declares, with what their variables stand for in the end. -/
def State.naming (s : State) : Naming := fun name => (s.free.lookup name).map s.subst.image

/-- The types of an expression under namings of what nothing declares are the instances of the one
that is inferred. -/
theorem inferExpr_typings {c : Context} {env : TypeEnv} {e : Expr} {s s' : State} {t : Ty}
    (h : (inferExpr c env e).Returns s t s') (hs : s.Sound) (hs' : s'.supply.Unwrapped)
    (hwhole : c.registry.isWhole = true) (henv : env.IsClosed)
    (hcore : e.isCore c.registry (knows env) = true) :
    s'.naming.IsMono ∧ t.isMono = true ∧ ∀ D' t', D'.IsMono →
      (HasType c.registry D' env.get? e t' ↔ ∃ θ : Valuation, θ.IsMono ∧ t' = t.bind θ ∧
        ∀ name u, s'.naming name = some u → D' name = some (u.bind θ)) := by
  obtain ⟨u, s₁, hinfer, rfl, lines, rfl⟩ := returns_inferExpr h
  have hfinds := infer_finds c env e hcore
  have hprepared := prepared_of_isClosed hwhole henv s.reset.supply.next
  obtain ⟨hsound, hu⟩ := hfinds.keeps s.reset (hinfer ▸ hs') hs.reset hprepared
  rw [hinfer] at hsound hu
  have hexplains := hfinds.finds s.reset u s₁ hinfer hs.reset hs' hprepared
  simp only [under_of_isClosed henv] at hexplains
  have hmono := hsound.subst.2.monoRange
  refine ⟨?_, (Subst.within_apply hsound.subst.2 hu).1, fun D' t' hD' => ⟨fun ht' => ?_, ?_⟩⟩
  · intro name v hv
    obtain ⟨id, -, rfl⟩ := Option.map_eq_some_iff.1 hv
    exact hmono id
  · have hadmits : s.reset.Admits .var D' :=
      ⟨fun _ => rfl, hD', Valuation.solves_empty _, fun name id hid => by cases hid⟩
    obtain ⟨θ, -, hθ, rfl⟩ := hexplains.complete .var D' t' hadmits ht'
    refine ⟨θ, hθ.mono, (hθ.subst.bind_apply hu.1).symm, fun name v hv => ?_⟩
    obtain ⟨id, hid, rfl⟩ := Option.map_eq_some_iff.1 hv
    rw [hθ.subst id]
    exact hθ.free name id hid
  · rintro ⟨θ, hθ, rfl, hnaming⟩
    have hadmits : s₁.Admits (fun x => (s₁.subst.image x).bind θ) D' := by
      refine ⟨fun x => Ty.isMono_bind (hmono x) fun y _ => hθ y, hD', fun x => ?_,
        fun name id hid => ?_⟩
      · rw [← Ty.bind_bind _ _ (hmono x), hsound.subst.1.bind_image]
      · exact hnaming name _ (by rw [State.naming, hid, Option.map_some])
    have htyped := (hexplains.sound _ _ hadmits).2
    rw [Subst.apply_eq_bind, Ty.bind_bind _ _ hu.1]
    exact htyped

theorem inferExpr_principal {c : Context} {env : TypeEnv} {e : Expr} {s s' : State} {t : Ty}
    (h : (inferExpr c env e).Returns s t s') (hs : s.Sound) (hs' : s'.supply.Unwrapped)
    (hwhole : c.registry.isWhole = true) (henv : env.IsClosed)
    (hcore : e.isCore c.registry (knows env) = true) :
    IsPrincipal c.registry env.get? e s'.naming t := by
  obtain ⟨hnaming, hmono, htypings⟩ := inferExpr_typings h hs hs' hwhole henv hcore
  refine ⟨hnaming, (htypings _ _ hnaming).2 ⟨.var, fun _ => rfl, (Ty.bind_var t).symm, ?_⟩,
    fun D' t' hD' => (htypings D' t' hD').1⟩
  intro name u hu
  rw [Ty.bind_var]
  exact hu

end Inference

namespace Checker

theorem returns_check {e : Expr} {c c' : Checker} {v : Verdict} (h : (check e).Returns c v c') :
    (Inference.inferExpr c.context c.env e).Returns c.inference v.type c'.inference := by
  obtain ⟨_, _, hget, h⟩ := Attempt.returns_bind_iff.1 h
  cases hget
  obtain ⟨t, c₁, hinfer, h⟩ := Attempt.returns_bind_iff.1 h
  obtain ⟨_, _, hget, h⟩ := Attempt.returns_bind_iff.1 h
  cases hget
  cases h
  rw [Attempt.Returns, inferring, Attempt.outcome_zoom, Attempt.ofFaults,
    Attempt.outcome_adapt] at hinfer
  cases houtcome : (Inference.inferExpr c.context c.env e).outcome c.inference with
  | mk r s =>
      rw [houtcome] at hinfer
      cases r with
      | ok u =>
          cases hinfer
          exact houtcome
      | error f => cases hinfer

end Checker

end Formulary
