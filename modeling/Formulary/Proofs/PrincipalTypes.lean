import Formulary.Proofs.Following
import Formulary.Proofs.Invariant

namespace Formulary

namespace Expr

/-- An expression behind a number of matches that look at a value and let everything pass. -/
def behind (value body : Expr) : Nat → Expr
  | 0 => body
  | n + 1 => .matching value [(.wildcard, behind value body n)]

/-- Under a name that is a scalar, another one that is looked at when as many variables have been
drawn as there are numbers. -/
def roundTrip : Expr :=
  .matching (.object "y") [(.const "0", behind (.object "Hollow") (.object "z") (2 ^ 64 - 1))]

end Expr

namespace Inference

variable {c : Context} {env : TypeEnv}

theorem returns_reviewCases (hstrict : c.strict = false) (e : Expr) (t : Ty) (ps : List Pattern)
    (s : State) : ∃ supply ws,
      (reviewCases c e t ps).Returns s () { s with supply, warnings := ws } := by
  have hfresh := outcome_fresh (Pattern.missing c.data ps t : StateM Supply (List String)) s
  rw [Attempt.outcome_liftState] at hfresh
  refine ⟨((Pattern.missing c.data ps t).run s.supply).2, ?_⟩
  unfold reviewCases
  simp only [Attempt.Returns, Attempt.outcome_bind, hfresh, hstrict]
  cases ((Pattern.missing c.data ps t).run s.supply).1 with
  | nil => exact returns_forM_warn ..
  | cons name names => exact returns_forM_warn ..

theorem returns_single_case (hstrict : c.strict = false) {a body : Expr} {p : Pattern} {u t : Ty}
    {s s₁ s₂ s₃ : State} {bindings : TypeEnv} (ha : (infer c env a).Returns s u s₁)
    (hp : (bindPattern c (.matching a [(p, body)]) p u).Returns s₁ bindings s₂)
    (hbody : (infer c (env.extend bindings.entries) body).Returns s₂ t s₃) :
    ∃ supply ws, (infer c env (.matching a [(p, body)])).Returns s (s₃.subst.apply t)
      { s₃ with supply, warnings := ws } := by
  obtain ⟨supply, ws, hreview⟩ := returns_reviewCases hstrict (.matching a [(p, body)])
    (s₃.subst.apply u) [p] s₃
  refine ⟨supply, ws, ?_⟩
  have hcases : (inferCases c env (.matching a [(p, body)]) u none [(p, body)]).Returns s₁ (some t)
      s₃ := by
    rw [inferCases]
    refine Attempt.returns_bind_iff.2 ⟨bindings, s₂, hp, ?_⟩
    exact Attempt.returns_bind_iff.2 ⟨t, s₃, hbody, rfl⟩
  rw [infer]
  dsimp only
  refine Attempt.returns_bind_iff.2 ⟨u, s₁, ha, ?_⟩
  refine Attempt.returns_bind_iff.2 ⟨some t, s₃, hcases, ?_⟩
  refine Attempt.returns_bind_iff.2 ⟨s₃.subst.apply u, s₃, rfl, ?_⟩
  exact Attempt.returns_bind_iff.2 ⟨(), _, hreview, rfl⟩

theorem returns_bindPattern_const (e : Expr) (value : String) (id : Int) {s : State}
    (hs : s.subst = ∅) : (bindPattern c e (.const value) (.var id)).Returns s ∅
      (s.hold (.singleton id .scalar)) := by
  have hunify : Ty.unify (.var id) .scalar = .ok (.singleton id .scalar) := by
    unfold Ty.unify Ty.scalar Ty.variant
    rw [Ty.unifyWithin]
    rfl
  have hrequire : Pattern.Typing.start.require (.var id) .scalar =
      .ok ⟨.singleton id .scalar, ∅⟩ := by
    have happly : Pattern.Typing.start.subst.apply (.var id) = .var id := rfl
    rw [Pattern.Typing.require, happly, hunify]
    rfl
  have hcheck : Pattern.check c.data (.const value) (.var id) =
      (return ⟨.singleton id .scalar, ∅⟩ : Fresh Pattern.Typing) := by
    rw [Pattern.check, Pattern.checkAfter, hrequire]
    rfl
  have hknown : (known (.var id)).Returns s (.var id) s := by
    show (Except.ok (s.subst.apply (.var id)), s) = _
    rw [hs]
    rfl
  have hhold : s.refine (.singleton id .scalar) = s.hold (.singleton id .scalar) := by
    rw [State.refine, hs]
    rfl
  rw [← hhold]
  refine Attempt.returns_bind_iff.2 ⟨_, _, hknown, ?_⟩
  rw [hcheck]
  rfl

/-- A constructor without fields, of a data type with one parameter, draws one variable. -/
theorem returns_constant {name : String} {d : DataType} {param : String}
    (henv : env.get? name = none) (hvariant : c.data.variant? name = some (d, ⟨name, []⟩))
    (hparams : d.params = [param]) (hmeta : d.name ≠ Ty.metaName) (s : State) :
    ∃ u, (infer c env (.object name)).Returns s u { s with supply := s.supply.advance } := by
  have hinfer : infer c env (.object name) = inferConstruction c (.object name) name [] := by
    rw [infer, inferName, henv, hvariant]
  have hinstance : c.data.instantiate name = (do
      let id ← (Supply.fresh : StateM Supply Int)
      return ⟨d.name, name, .instanceOf d.name [.var id], []⟩ : Fresh VariantInstance) := by
    unfold DataTypes.instantiate
    rw [hvariant]
    dsimp only
    rw [if_neg hmeta, hparams]
    rfl
  rw [hinfer, inferConstruction, hinstance]
  exact ⟨_, rfl⟩

/-- Behind matches that draw one variable each, a name that nothing declares gets the variable that
comes as many numbers later. -/
theorem returns_behind (hstrict : c.strict = false) {value : Expr}
    (hvalue : ∀ s, ∃ u, (infer c env value).Returns s u { s with supply := s.supply.advance })
    {name : String} (hname : inferName c env name = freeName name) (n : Nat) {s : State}
    (hfree : s.free.lookup name = none)
    (hsettled : ∀ x, s.subst.apply (s.subst.image x) = s.subst.image x) :
    ∃ t s', (infer c env (.behind value (.object name) n)).Returns s t s' ∧ s'.subst = s.subst ∧
      s.subst.apply t =
        s.subst.image (Supply.next { s.supply with drawn := s.supply.drawn + n }) := by
  induction n generalizing s with
  | zero =>
      have hfreeName : (freeName name).Returns s (.var s.supply.next) { s with
          supply := s.supply.advance, free := (name, s.supply.next) :: s.free } := by
        unfold freeName
        rw [Attempt.Returns, Attempt.outcome_bind, Attempt.outcome_get]
        simp only [hfree]
        rfl
      rw [Expr.behind, infer, hname]
      exact ⟨_, _, hfreeName, rfl, Subst.apply_var _ _⟩
  | succ n ih =>
      let s₁ : State := { s with supply := s.supply.advance }
      obtain ⟨u, hu⟩ := hvalue s
      have hpattern :
          (bindPattern c (.behind value (.object name) (n + 1)) .wildcard u).Returns s₁ ∅
            (s₁.hold s.subst) := rfl
      obtain ⟨t, s', hbody, hsubst, ht⟩ := ih (s := s₁.hold s.subst) hfree hsettled
      obtain ⟨supply, ws, hmatch⟩ := returns_single_case hstrict hu hpattern hbody
      have hsubst' : s'.subst = s.subst := hsubst
      have ht' : s.subst.apply t = s.subst.image
          (Supply.next { s.supply.advance with drawn := s.supply.advance.drawn + n }) := ht
      refine ⟨_, _, hmatch, hsubst', ?_⟩
      rw [hsubst', ht', hsettled]
      refine congrArg s.subst.image ?_
      simp only [Supply.next, Supply.advance]
      push_cast
      ring_nf

theorem returns_roundTrip (hstrict : c.strict = false)
    (hname : ∀ name ∈ ["y", "z"], inferName c env name = freeName name)
    (hvalue : ∀ s, ∃ u, (infer c env (.object "Hollow")).Returns s u
      { s with supply := s.supply.advance }) (s : State) :
    ∃ s', (infer c env .roundTrip).Returns s.reset .scalar s' ∧
      s'.subst = .singleton s.supply.next .scalar := by
  let id := s.supply.next
  let s₁ : State := { s.reset with supply := s.reset.supply.advance, free := [("y", id)] }
  have hscrutinee : (infer c env (.object "y")).Returns s.reset (.var id) s₁ := by
    rw [infer, hname "y" (by simp)]
    rfl
  have hpattern := returns_bindPattern_const (c := c) .roundTrip "0" id (s := s₁) rfl
  have hsettled (x : Int) :
      (Subst.singleton id .scalar).apply ((Subst.singleton id .scalar).image x) =
        (Subst.singleton id .scalar).image x := by
    rw [Subst.image_singleton]
    split
    · rfl
    · rename_i hx
      rw [Subst.apply_var, Subst.image_singleton, if_neg hx]
  obtain ⟨t, s₂, hbody, hsubst, ht⟩ := returns_behind hstrict hvalue (hname "z" (by simp))
    (2 ^ 64 - 1) (s := s₁.hold (.singleton id .scalar)) rfl hsettled
  obtain ⟨supply, ws, hinfer⟩ := returns_single_case hstrict hscrutinee hpattern hbody
  have hround : Supply.next { s₁.supply with drawn := s₁.supply.drawn + (2 ^ 64 - 1) } = id := by
    have hdrawn : s₁.supply.first + ((s₁.supply.drawn + (2 ^ 64 - 1) : Nat) : Int) =
        s.supply.first + s.supply.drawn + (0x10000000000000000 : Nat) := by
      simp only [s₁, State.reset, State.hold, Supply.resetCount, Supply.advance]
      push_cast
      ring
    rw [Supply.next, hdrawn]
    exact Int.add_bmod_right ..
  have ht : s₂.subst.apply t = .scalar := by
    have hsubst : s₂.subst = .singleton id .scalar := hsubst
    rw [hsubst]
    refine ht.trans ?_
    show (Subst.singleton id .scalar).image (Supply.next { s₁.supply with
      drawn := s₁.supply.drawn + (2 ^ 64 - 1) }) = .scalar
    rw [hround, Subst.image_singleton, if_pos rfl]
  rw [ht] at hinfer
  exact ⟨_, hinfer, hsubst⟩

theorem returns_inferExpr_of_infer {e : Expr} {s s' : State} {t : Ty} (he : e ≠ .blank)
    (h : (infer c env e).Returns s.reset t s') (hs : s'.subst.isIdempotent = true) :
    ∃ lines, (inferExpr c env e).Returns s (s'.subst.apply t) { s' with log := lines } := by
  obtain ⟨lines, hsettle⟩ := outcome_settleType c e t hs
  refine ⟨lines, ?_⟩
  rw [Attempt.Returns, outcome_inferExpr c env he]
  exact Attempt.returns_bind_iff.2 ⟨t, s', h, hsettle⟩

end Inference

namespace Ty

theorem rename_eq_bind (ρ : Int → Int) {t : Ty} (h : t.isMono = true) :
    t.rename ρ = t.bind fun x => .var (ρ x) := by
  have hrename := rename_bind_of_isOver ρ .var (isOver_of_isMono h)
  rw [bind_var] at hrename
  exact hrename

theorem bind_rename_symm (ids : Equiv.Perm Int) (θ : Valuation) {t : Ty} (h : t.isMono = true) :
    (t.rename ids).bind (fun x => θ (ids.symm x)) = t.bind θ := by
  rw [rename_eq_bind ids h, bind_bind _ _ h]
  exact bind_congr fun x _ => by rw [bind, Equiv.symm_apply_apply]

end Ty

/-- A type that has the types of an expression for its instances is principal, in any numbers. -/
theorem IsPrincipal.of_typings {r : Registry} {Γ D : Naming} {e : Expr} {t : Ty}
    (ids : Equiv.Perm Int) (hD : D.IsMono) (ht : t.isMono = true)
    (h : ∀ D' t', D'.IsMono → (HasType r D' Γ e t' ↔ ∃ θ : Valuation, θ.IsMono ∧ t' = t.bind θ ∧
      ∀ name u, D name = some u → D' name = some (u.bind θ))) :
    IsPrincipal r Γ e (fun name => (D name).map (·.rename ids)) (t.rename ids) := by
  have hrenamed : Naming.IsMono fun name => (D name).map (·.rename ids) := by
    intro name u hu
    obtain ⟨w, hw, rfl⟩ := Option.map_eq_some_iff.1 hu
    rw [Ty.rename_eq_bind ids (hD name w hw)]
    exact Ty.isMono_bind (hD name w hw) fun _ _ => rfl
  refine ⟨hrenamed, ?_, fun D' t' hD' ht' => ?_⟩
  · refine (h _ _ hrenamed).2 ⟨fun x => .var (ids x), fun _ => rfl, Ty.rename_eq_bind ids ht, ?_⟩
    intro name u hu
    rw [hu, Option.map_some, Ty.rename_eq_bind ids (hD name u hu)]
  · obtain ⟨θ, hθ, rfl, hnaming⟩ := (h D' t' hD').1 ht'
    refine ⟨fun x => θ (ids.symm x), fun x => hθ _, (Ty.bind_rename_symm ids θ ht).symm, ?_⟩
    intro name u hu
    obtain ⟨w, hw, rfl⟩ := Option.map_eq_some_iff.1 hu
    rw [Ty.bind_rename_symm ids θ (hD name w hw)]
    exact hnaming name w hw

theorem HasType.behind {r : Registry} {D Γ : Naming} {value body : Expr} {u t : Ty}
    (hvalue : HasType r D Γ value u) (hbody : HasType r D Γ body t) (n : Nat) :
    HasType r D Γ (.behind value body n) t := by
  induction n with
  | zero => exact hbody
  | succ n ih =>
      have hover : Γ.over .empty = Γ := rfl
      exact .matching hvalue (List.cons_ne_nil _ _) (.cons .wildcard (hover.symm ▸ ih) .nil)

theorem Expr.isCore_behind {r : Registry} {known : String → Bool} {value body : Expr}
    (hvalue : value.isCore r known = true) (hbody : body.isCore r known = true) (n : Nat) :
    (Expr.behind value body n).isCore r known = true := by
  induction n with
  | zero => exact hbody
  | succ n ih =>
      rw [Expr.behind, isCore, isCoreCases, isCoreCases, Bool.and_true, hvalue, Bool.true_and]
      exact ih

namespace Checker

/-- A run of inference from the smallest number on, beside one that has drawn fewer variables than
there are numbers: the types are the same but for the numbers, and the numbers do not run over. -/
theorem Reachable.exists_unwrapped {c : Checker} (hc : c.Reachable) {e : Expr} (he : e ≠ .blank)
    {t : Ty} {s : Inference.State}
    (h : (Inference.inferExpr c.context c.env e).Returns c.inference t s)
    (hdrawn : s.supply.drawn < c.inference.supply.drawn + 2 ^ 64) :
    ∃ (ids : Equiv.Perm Int) (s' : Inference.State),
      (Inference.inferExpr c.context c.env e).Returns (.startingAt (-2 ^ 63)) (t.rename ids) s' ∧
        s'.supply.Unwrapped := by
  obtain ⟨M, hsupply, hagree, hnames⟩ :=
    hc.exists_mirror c.inference.supply (Inference.State.startingAt (-2 ^ 63)).supply
  have hlike := Inference.inferExpr_agrees hagree he (fun name _ => hnames name) hsupply
  rw [h] at hlike
  have hgrows := (Inference.inferExpr_keeps c.context c.env e).grows (.startingAt (-2 ^ 63))
  cases hrun : (Inference.inferExpr c.context c.env e).outcome (.startingAt (-2 ^ 63)) with
  | mk r s' =>
      rw [hrun] at hlike hgrows
      cases r with
      | error f => exact hlike.elim
      | ok t' =>
          obtain ⟨⟨rfl, -⟩, hs'⟩ := hlike
          refine ⟨M.ids, s', hrun, ?_⟩
          have hfirst : s'.supply.first = -2 ^ 63 := hgrows.1.symm
          have hstart : (0 : Int) = c.inference.supply.drawn + M.ahead := hsupply.drawn
          have hend : (s'.supply.drawn : Int) = s.supply.drawn + M.ahead := hs'.supply.drawn
          refine ⟨hfirst.ge, ?_⟩
          rw [hfirst, hend]
          omega

/-- Whatever has been loaded, checked and evaluated before: the type that a checker tells of an
expression of the core is principal, unless the check draws as many variables as there are numbers.
It is one by the rules of typing, for some types of the names that nothing declares, and every other
choice of types is an instance of this one. -/
theorem check_principal (options : Options) (rs : List Request) {e : Expr} {v : Verdict}
    {c' : Checker} (h : (check e).Returns ((create options).after rs) v c')
    (hdrawn : c'.inference.supply.drawn <
      ((create options).after rs).inference.supply.drawn + 2 ^ 64)
    (hcore : e.isCore ((create options).after rs).registry
      (Inference.knows ((create options).after rs).env) = true) :
    ∃ D : Naming, IsPrincipal ((create options).after rs).registry
      ((create options).after rs).env.get? e D v.type := by
  have hc : ((create options).after rs).Reachable := ⟨options, rs, rfl⟩
  generalize (create options).after rs = c at *
  have he : e ≠ .blank := by
    rintro rfl
    cases hcore
  -- The numbers of the run at hand may have run over. Those of its image from the smallest number
  -- on have not, and it finds the same type in other numbers.
  obtain ⟨ids, s', hrun, hs'⟩ := hc.exists_unwrapped he (returns_check h) hdrawn
  obtain ⟨hnaming, hmono, htypings⟩ := Inference.inferExpr_typings hrun
    (Inference.State.sound_startingAt _) hs' hc.isWhole hc.isClosed hcore
  have hprincipal := IsPrincipal.of_typings ids.symm hnaming hmono htypings
  rw [Ty.rename_symm] at hprincipal
  exact ⟨_, hprincipal⟩

set_option maxRecDepth 4000 in
theorem check_principal_identity :
    let c := (create ⟨false, false, 0, true, false⟩).after [.load "identity" "define f(x) = x"]
    let e := Expr.matching (.object "a") [(.var "y", .operation "f" [.object "y"])]
    ∃ D : Naming, IsPrincipal c.registry c.env.get? e D (.var 4) := by
  intro c e
  have hparse : Declaration.parseAll "define f(x) = x" =
      .ok [.definition ⟨"f", [⟨"x", none⟩], none, .object "x"⟩] := by
    cbv
  have hc : c = ((load [.definition ⟨"f", [⟨"x", none⟩], none, .object "x"⟩]).outcome
      (create ⟨false, false, 0, true, false⟩)).2 := state_load_request hparse ..
  obtain ⟨htype, hdrawn, hcore⟩ : ((check e).outcome c).1 = .ok ⟨.var 4, []⟩ ∧
      ((check e).outcome c).2.inference.supply.drawn = 5 ∧
      e.isCore c.registry (Inference.knows c.env) = true := by
    rw [hc]
    cbv
    exact ⟨rfl, trivial⟩
  have hreturns : (check e).Returns c ⟨.var 4, []⟩ ((check e).outcome c).2 := Prod.ext htype rfl
  refine check_principal _ _ hreturns ?_ hcore
  rw [hdrawn]
  exact Nat.lt_add_left _ (by decide)

/-- A check that hands out as many variables as there are numbers gives one number to two names, and
the type that it tells is not principal. -/
theorem check_principal_overrun :
    let c := (create ⟨false, false, 0, true, false⟩).after [.load "boxes" "data Box(T) = Hollow"]
    let e := Expr.roundTrip
    e.isCore c.registry (Inference.knows c.env) = true ∧
      ∃ v c', (check e).Returns c v c' ∧ ∀ D, ¬IsPrincipal c.registry c.env.get? e D v.type := by
  intro c e
  have hparse : Declaration.parseAll "data Box(T) = Hollow" =
      .ok [.data ⟨"Box", ["T"], [⟨"Hollow", []⟩]⟩] := by
    cbv
  have hc : c = ((load [.data ⟨"Box", ["T"], [⟨"Hollow", []⟩]⟩]).outcome
      (create ⟨false, false, 0, true, false⟩)).2 := state_load_request hparse ..
  obtain ⟨hregistry, henv, hstrict⟩ :
      c.registry = ⟨⟨[⟨"Box", ["T"], [⟨"Hollow", []⟩]⟩]⟩, [], []⟩ ∧ c.env = ∅ ∧
        c.options.strict = false := by
    rw [hc]
    exact ⟨rfl, rfl, rfl⟩
  have hget (name : String) : c.env.get? name = none := by rw [henv]; rfl
  have hfree : ∀ name ∈ ["y", "z"], c.registry.data.variant? name = none ∧
      c.registry.operation? name = none := by
    rw [hregistry]
    decide
  have hname : ∀ name ∈ ["y", "z"],
      Inference.inferName c.context c.env name = Inference.freeName name := by
    intro name hmem
    have hvariant : c.context.data.variant? name = none := (hfree name hmem).1
    have hoperation : c.context.registry.operation? name = none := (hfree name hmem).2
    rw [Inference.inferName, hget, hvariant, hoperation]
  have hbox : c.registry.data.variant? "Hollow" =
      some (⟨"Box", ["T"], [⟨"Hollow", []⟩]⟩, ⟨"Hollow", []⟩) := by
    rw [hregistry]
    rfl
  have hvalue := Inference.returns_constant (c := c.context) (hget "Hollow") hbox rfl (by decide)
  obtain ⟨s, hinfer, hsubst⟩ := Inference.returns_roundTrip (c := c.context) hstrict hname hvalue
    c.inference
  obtain ⟨lines, hcheck⟩ := Inference.returns_inferExpr_of_infer (by simp [Expr.roundTrip])
    hinfer (by rw [hsubst]; rfl)
  rw [hsubst] at hcheck
  have hscalar : (Subst.singleton c.inference.supply.next .scalar).apply .scalar = .scalar := rfl
  rw [hscalar] at hcheck
  have hopen : ∀ name ∈ ["y", "z"], c.registry.isOpen name = true := by
    intro name hmem
    rw [Registry.isOpen, (hfree name hmem).1, (hfree name hmem).2]
  refine ⟨?_, ⟨.scalar, _⟩, _, outcome_check_of_ok hcheck, fun D hprincipal => ?_⟩
  · have hhollow : ∀ known, (Expr.object "Hollow").isCore c.registry known = true := by
      intro known
      rw [Expr.isCore, hbox]
      exact Bool.or_true _
    simp only [e, Expr.roundTrip, Expr.isCore, Expr.isCoreCases, Bool.and_true,
      Bool.and_eq_true]
    refine ⟨Expr.isCore_of_isOpen (hopen "y" (by simp)), Expr.isCore_behind (hhollow _) ?_ _⟩
    exact Expr.isCore_of_isOpen (hopen "z" (by simp))
  · let D' : Naming := fun name => if name = "y" then some .scalar else some (.fn .scalar .scalar)
    have hmono : D'.IsMono := by
      intro name t ht
      simp only [D'] at ht
      split at ht <;> cases ht <;> rfl
    have hbuilds : c.registry.data.Builds "Hollow" [] (.instanceOf "Box" [.scalar]) :=
      .ofData hbox (by decide) rfl (by simp; rfl) .nil
    have htyped : HasType c.registry D' c.env.get? e (.fn .scalar .scalar) := by
      refine .matching (.free (hget "y") (hopen "y" (by simp)) rfl) (List.cons_ne_nil _ _)
        (.cons .const (.behind (.constructor (hget "Hollow") hbuilds) ?_ _) .nil)
      exact .free (hget "z") (hopen "z" (by simp)) rfl
    obtain ⟨θ, -, heq, -⟩ := hprincipal.general D' (.fn .scalar .scalar) hmono htyped
    cases heq

end Checker

end Formulary
