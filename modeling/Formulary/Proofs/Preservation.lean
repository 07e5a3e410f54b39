import Formulary.Proofs.Completeness
import Formulary.Proofs.Steadiness

namespace Formulary

section

variable {S : Setting} {defs : List Definition} {Γ : Naming}

/-- A place where every definition is known, the trusted ones by their schemes. -/
structure Setting.KnownIn (S : Setting) (Γ : Naming) : Prop where
  schemes : ∀ name scheme, S.schemes name = some scheme → Γ name = some scheme
  apart : ∀ name, Γ name ≠ none → S.registry.data.variant? name = none ∧ S.free name = none

theorem Setting.KnownIn.eq_none_of_builds (hΓ : S.KnownIn Γ) {name : String} {ts : List Ty} {t : Ty}
    (h : S.registry.data.Builds name ts t) : Γ name = none := by
  by_contra hknown
  exact h.ne_none (hΓ.apart name hknown).1

theorem Setting.KnownIn.eq_none_of_free (hΓ : S.KnownIn Γ) {name : String} {t : Ty}
    (h : S.free name = some t) : Γ name = none := by
  by_contra hknown
  cases (hΓ.apart name hknown).2.symm.trans h

theorem Setting.KnownIn.variant?_eq_none (hΓ : S.KnownIn Γ) {name : String} {scheme : Ty}
    (h : S.schemes name = some scheme) : S.registry.data.variant? name = none :=
  (hΓ.apart name (by simp [hΓ.schemes name scheme h])).1

mutual

theorem Typed.hasType (hΓ : S.KnownIn Γ) {e : Expr} {t : Ty} (h : Typed S .empty e t)
    (hnormal : e.isNormal defs = true) : HasType S.registry S.free Γ e t := by
  cases e with
  | blank => cases h
  | const value =>
      cases h
      exact .const
  | object name =>
      cases h with
      | bound hname => cases hname
      | defined _ hname hinstance => exact .bound (hΓ.schemes _ _ hname) hinstance
      | constant _ _ hbuilds => exact .constructor (hΓ.eq_none_of_builds hbuilds) hbuilds
      | free _ _ hopen hfree => exact .free (hΓ.eq_none_of_free hfree) hopen hfree
  | operation name args =>
      rw [Expr.isNormal, Bool.and_eq_true] at hnormal
      cases h with
      | construction hargs _ hbuilds =>
          exact .construction (TypedList.hasTypes hΓ hargs hnormal.2) hbuilds
      | call hname _ hargs hinstance =>
          exact .call (hΓ.variant?_eq_none hname) (hΓ.schemes _ _ hname)
            (TypedList.hasTypes hΓ hargs hnormal.2) hinstance
  | matching scrutinee cases => cases hnormal

theorem TypedList.hasTypes (hΓ : S.KnownIn Γ) {es : List Expr} {ts : List Ty}
    (h : TypedList S .empty es ts) (hnormal : Expr.isNormalList defs es = true) :
    HasTypes S.registry S.free Γ es ts := by
  match es with
  | [] =>
      cases h
      exact .nil
  | e :: es =>
      rw [Expr.isNormalList, Bool.and_eq_true] at hnormal
      cases h with
      | cons he hes =>
          exact .cons (Typed.hasType hΓ he hnormal.1) (TypedList.hasTypes hΓ hes hnormal.2)

end

mutual

theorem Typed.isCore (hΓ : S.KnownIn Γ) {e : Expr} {t : Ty} (h : Typed S .empty e t)
    (hnormal : e.isNormal defs = true) : e.isCore S.registry (fun name => (Γ name).isSome) = true := by
  cases e with
  | blank => cases h
  | const value => rfl
  | object name =>
      cases h with
      | bound hname => cases hname
      | defined _ hname => simp [Expr.isCore, hΓ.schemes _ _ hname]
      | constant _ hplain hbuilds =>
          obtain ⟨d, written, hvariant⟩ := hbuilds.variant_of_nil
          have howner : d.name ≠ Ty.metaName := by
            simpa [DataTypes.isPlain, hvariant] using hplain
          simp [Expr.isCore, hvariant, howner]
      | free _ _ hopen =>
          exact Expr.isCore_of_isOpen hopen
  | operation name args =>
      rw [Expr.isNormal, Bool.and_eq_true] at hnormal
      rw [Expr.isCore, Bool.and_eq_true]
      cases h with
      | construction hargs hplain hbuilds =>
          refine ⟨?_, TypedList.isCoreList hΓ hargs hnormal.2⟩
          rw [if_pos (Option.isSome_iff_ne_none.2 hbuilds.ne_none)]
          exact hplain
      | call hname _ hargs =>
          refine ⟨?_, TypedList.isCoreList hΓ hargs hnormal.2⟩
          simp [hΓ.variant?_eq_none hname, hΓ.schemes _ _ hname]
  | matching scrutinee cases => cases hnormal

theorem TypedList.isCoreList (hΓ : S.KnownIn Γ) {es : List Expr} {ts : List Ty}
    (h : TypedList S .empty es ts) (hnormal : Expr.isNormalList defs es = true) :
    Expr.isCoreList S.registry (fun name => (Γ name).isSome) es = true := by
  match es with
  | [] => rfl
  | e :: es =>
      rw [Expr.isNormalList, Bool.and_eq_true] at hnormal
      rw [Expr.isCoreList, Bool.and_eq_true]
      cases h with
      | cons he hes => exact ⟨Typed.isCore hΓ he hnormal.1, TypedList.isCoreList hΓ hes hnormal.2⟩

end

variable {callable : String → Nat → Bool}

mutual

/-- What a value calls and does not expand takes as many arguments as it is called with. -/
theorem Typed.isFirstOrder (hcallable : ∀ name args, S.sized name args.length →
      Evaluation.expand? defs name args = none → callable name args.length = true)
    {e : Expr} {t : Ty} (h : Typed S .empty e t) (hnormal : e.isNormal defs = true) :
    e.isFirstOrder S.registry callable [] = true := by
  cases e with
  | blank | const | object => rfl
  | operation name args =>
      rw [Expr.isNormal, Bool.and_eq_true] at hnormal
      rw [Expr.isFirstOrder, Bool.and_eq_true]
      cases h with
      | construction hargs _ hbuilds =>
          refine ⟨?_, TypedList.isFirstOrderList hcallable hargs hnormal.2⟩
          simp [Option.isSome_iff_ne_none.2 hbuilds.ne_none]
      | call _ hsized hargs =>
          refine ⟨?_, TypedList.isFirstOrderList hcallable hargs hnormal.2⟩
          simp [hcallable name args hsized (Option.isNone_iff_eq_none.1 hnormal.1)]
  | matching scrutinee cases => cases hnormal

theorem TypedList.isFirstOrderList (hcallable : ∀ name args, S.sized name args.length →
      Evaluation.expand? defs name args = none → callable name args.length = true)
    {es : List Expr} {ts : List Ty} (h : TypedList S .empty es ts)
    (hnormal : Expr.isNormalList defs es = true) :
    Expr.isFirstOrderList S.registry callable [] es = true := by
  match es with
  | [] => rfl
  | e :: es =>
      rw [Expr.isNormalList, Bool.and_eq_true] at hnormal
      rw [Expr.isFirstOrderList, Bool.and_eq_true]
      cases h with
      | cons he hes =>
          exact ⟨Typed.isFirstOrder hcallable he hnormal.1,
            TypedList.isFirstOrderList hcallable hes hnormal.2⟩

end

end

namespace Checker

/-- What an expression evaluates to has a type, and the type of the expression is an instance of it. -/
def KeepsType (c : Checker) (e : Expr) : Prop :=
  ∀ v value, ((check e).outcome c).1 = .ok v → ((evaluate e).outcome c).1 = .ok value →
    ∃ w, ((check value).outcome c).1 = .ok w ∧
      ∃ θ : Valuation, θ.IsMono ∧ v.type = w.type.bind θ

theorem eval_of_evaluate {c : Checker} {e value : Expr}
    (h : ((evaluate e).outcome c).1 = .ok value) :
    Evaluation.eval c.definitions c.options.depth e = .ok value := by
  obtain ⟨c', h⟩ : ∃ c', (evaluate e).Returns c value c' := ⟨_, Prod.ext h rfl⟩
  obtain ⟨_, c₁, hcheck, h⟩ := Attempt.returns_bind_iff.1 h
  obtain ⟨_, c₂, hget, h⟩ := Attempt.returns_bind_iff.1 h
  cases hget
  obtain ⟨inference, hstate⟩ := exists_inference_check c e
  obtain rfl : { c with inference } = c₁ := hstate.symm.trans (congrArg Prod.snd hcheck)
  cases heval : Evaluation.eval c.definitions c.options.depth e with
  | ok value' =>
      dsimp only at h
      rw [heval] at h
      cases h
      rfl
  | error f =>
      dsimp only at h
      rw [heval] at h
      cases h

theorem check_of_inferExpr {c : Checker} {e : Expr} {t : Ty} {s : Inference.State}
    (h : (Inference.inferExpr c.context c.env e).Returns c.inference t s) :
    ((check e).outcome c).1 = .ok ⟨t, s.warnings⟩ := by
  rw [outcome_check_of_ok h]

theorem inference_check (c : Checker) (e : Expr) : ((check e).outcome c).2.inference =
    ((Inference.inferExpr c.context c.env e).outcome c.inference).2 := by
  cases h : (Inference.inferExpr c.context c.env e).outcome c.inference with
  | mk r s =>
      cases r with
      | ok t => rw [outcome_check_of_ok h]
      | error f => rw [outcome_check_of_error h]

section

variable {trusted : String → Bool} {c : Checker}

/-- What names stand for when a checker evaluates an expression in which nothing declares some names,
which have types of their own. -/
def settingWith (trusted : String → Bool) (c : Checker) (D : Naming) : Setting :=
  { c.setting trusted with free := fun name => if Inference.knows c.env name then none else D name }

variable {D : Naming}

theorem Steady.knownIn (hc : c.Steady trusted) : (c.settingWith trusted D).KnownIn c.env.get? where
  schemes name scheme hname := (setting_schemes.1 hname).2
  apart name hknown := by
    have hknows : Inference.knows c.env name = true := Option.isSome_iff_ne_none.2 hknown
    exact ⟨(hc.separated name ((hc.named name).1 hknows)).1, if_pos hknows⟩

theorem Steady.regular (hc : c.Steady trusted) (hsound : c.Sound) (hD : D.IsMono) :
    (c.settingWith trusted D).Regular c.definitions where
  apart d hd := hc.knownIn.apart d.name <| Option.isSome_iff_ne_none.1 <|
    (hc.named d.name).2 (List.mem_map_of_mem hd)
  separate name scheme hname :=
    (hc.knownIn.apart name (by simp [hc.knownIn.schemes name scheme hname])).1
  schemes name scheme hname := by
    have hclosed := hsound.env.1 name scheme (setting_schemes.1 hname).2
    simp only [Ty.isClosedScheme, Bool.and_eq_true] at hclosed
    exact hclosed.1
  free name t hname := by
    show t.isMono = true
    simp only [settingWith] at hname
    split at hname
    · cases hname
    · exact hD name t hname

theorem Steady.definesWith (hc : c.Steady trusted) :
    (c.settingWith trusted D).Defines c.definitions := by
  have hwithin : (c.setting trusted).Within (c.settingWith trusted D) :=
    ⟨.refl _, fun _ _ => id, fun _ _ => id, rfl⟩
  exact hc.defines.within hwithin fun _ _ _ => id

theorem Steady.takes_of_callable (hc : c.Steady trusted) {name : String} {args : List Expr}
    (hcallable : c.callable name args.length = true)
    (hnone : Evaluation.expand? c.definitions name args = none) :
    Inference.takes c.env name args.length = true := by
  rcases Bool.or_eq_true_iff.1 hcallable with htakes | hparams
  · exact htakes
  · obtain ⟨d, hd, hparams⟩ := List.any_eq_true.1 hparams
    obtain ⟨rfl, hlength⟩ : d.name = name ∧ d.params.length = args.length := by simpa using hparams
    have hdefinition := Evaluation.definition?_of_mem hc.nodup hd
    cases hnone.symm.trans (Evaluation.expand?_eq_some_iff.2 ⟨d, hdefinition, hlength, rfl⟩)

theorem Steady.typed_of_check (hc : c.Steady trusted) (hsound : c.Sound) {e : Expr} {v : Verdict}
    {c' : Checker} (h : (check e).Returns c v c') (hu : c'.inference.supply.Unwrapped)
    (hcore : e.isCore c.registry (Inference.knows c.env) = true)
    (horder : e.isFirstOrder c.registry (fun _ _ => true) [] = true)
    (hrefers : ∀ name ∈ e.freeNames, name ∈ c.definitionNames → trusted name = true) :
    ∃ D : Naming, D.IsMono ∧ Typed (c.settingWith trusted D) .empty e v.type := by
  have hprincipal := Inference.inferExpr_principal (returns_check h) hsound.inference hu
    hsound.registry hsound.env.1 hcore
  obtain ⟨u, s₁, hinfer, -, lines, hs₁⟩ := Inference.returns_inferExpr (returns_check h)
  have hu₁ : s₁.supply.Unwrapped := by
    rw [hs₁] at hu
    exact hu
  have hprepared := Inference.prepared_of_isClosed (c := c.context) hsound.registry hsound.env.1
    c.inference.supply.next
  have htakes := Inference.isFirstOrder_of_infer hsound.env.1 hinfer hu₁ hsound.inference.reset
    (Inference.prepared_ready hprepared) (Expr.isWhole_of_isCore hcore) hcore (fun _ _ => rfl) horder
  refine ⟨c'.inference.naming, hprincipal.naming, ?_⟩
  refine Setting.typed_of_hasType hprincipal.typed (fun _ _ hname => by cases hname)
    (fun name => by simp [Naming.empty]) hcore htakes (fun name n hn => ?_) fun name hname => ?_
  · exact Bool.or_eq_true_iff.2 (.inl hn)
  · refine ⟨fun scheme hscheme => ⟨scheme, ?_, fun _ => id⟩, fun hnone _ => ⟨?_, ?_⟩⟩
    · have hdefined := (hc.named name).1 (by simp [Inference.knows, hscheme])
      exact setting_schemes.2 ⟨hrefers name (List.mem_eraseDups.2 hname) hdefined, hscheme⟩
    · refine Option.eq_none_iff_forall_ne_some.2 fun scheme hscheme => ?_
      cases hnone.symm.trans (setting_schemes.1 hscheme).2
    · exact if_neg (by simp [Inference.knows, hnone])

theorem Steady.check_of_typed (hc : c.Steady trusted) (hsound : c.Sound) {value : Expr} {t : Ty}
    (hD : D.IsMono) (h : Typed (c.settingWith trusted D) .empty value t)
    (hnormal : value.isNormal c.definitions = true)
    (hu : ((check value).outcome c).2.inference.supply.Unwrapped) :
    ∃ w, ((check value).outcome c).1 = .ok w ∧ ∃ θ : Valuation, θ.IsMono ∧ t = w.type.bind θ := by
  rw [inference_check] at hu
  have hmono := (hc.regular hsound hD).free
  have htype := h.hasType hc.knownIn hnormal
  have hcore := h.isCore hc.knownIn hnormal
  have horder : value.isFirstOrder c.registry (Inference.takes c.env) [] = true :=
    h.isFirstOrder (fun name args => hc.takes_of_callable) hnormal
  obtain ⟨u, s, hinfer⟩ := Inference.inferExpr_succeeds (c := c.context) htype hmono hsound.inference
    hu hsound.registry hsound.env hnormal hcore horder
  rw [hinfer] at hu
  have hprincipal := Inference.inferExpr_principal hinfer hsound.inference hu hsound.registry
    hsound.env.1 hcore
  obtain ⟨θ, hθ, hvalue, -⟩ := hprincipal.general _ _ hmono htype
  exact ⟨_, check_of_inferExpr hinfer, θ, hθ, hvalue⟩

/-- Behind a session that suits the checkers on its way, what an expression of first order evaluates
to has a type that the type of the expression is an instance of. -/
theorem keepsType_of_isFirstOrder (trusted : String → Bool) (options : Options) (rs : List Request)
    (hsuits : (create options).SuitsAll trusted rs) (e : Expr)
    (hcore : e.isCore ((create options).after rs).registry
      (Inference.knows ((create options).after rs).env) = true)
    (horder : e.isFirstOrder ((create options).after rs).registry (fun _ _ => true) [] = true)
    (hrefers : ∀ name ∈ e.freeNames, name ∈ ((create options).after rs).definitionNames →
      trusted name = true)
    (hcheck : ((check e).outcome ((create options).after rs)).2.Unexhausted)
    (hvalue : ∀ value, ((evaluate e).outcome ((create options).after rs)).1 = .ok value →
      ((check value).outcome ((create options).after rs)).2.Unexhausted) :
    ((create options).after rs).KeepsType e := by
  intro v value hv hevaluate
  have hle := fun e : Expr => (le_after (create options) rs).trans
    ((check_keeps e).grows ((create options).after rs))
  have hu := unwrapped_of_le (hle e) hcheck
  have hs := hu.of_le ((check_keeps e).grows ((create options).after rs))
  have hcreated := create_sound options (hs.of_le (le_after _ rs))
  obtain ⟨hsound, -⟩ := after_sound hcreated hs
  have hsteady := (create_steady options).after hcreated hs hsuits
  obtain ⟨D, hD, htyped⟩ := hsteady.typed_of_check hsound (Prod.ext hv rfl) hu hcore horder hrefers
  obtain ⟨hnormal, htyped⟩ := Evaluation.eval_typed (hsteady.regular hsound hD) hsteady.definesWith
    htyped (eval_of_evaluate hevaluate)
  exact hsteady.check_of_typed hsound hD htyped hnormal
    (unwrapped_of_le (hle value) (hvalue value hevaluate))

end

/-- Truth values, and the definition that swaps them. -/
def swap : Definition :=
  ⟨"f", [⟨"x", none⟩], none, .matching (.object "x")
    [(.constructor "T" [], .object "F"), (.constructor "F" [], .object "T")]⟩

def swapSource : String := "data B = T | F\ndefine f(x) = match x \x7b T => F | F => T \x7d"

def swapDeclarations : List Declaration :=
  [.data ⟨"B", [], [⟨"T", []⟩, ⟨"F", []⟩]⟩, .definition swap]

def swapping : Checker := bare.after [.load "swap" swapSource]

set_option maxRecDepth 4000 in
theorem parseAll_swapSource : Declaration.parseAll swapSource = .ok swapDeclarations := by
  cbv

theorem swapping_eq : swapping = ((load swapDeclarations).outcome bare).2 :=
  state_load_request parseAll_swapSource ..

set_option maxRecDepth 4000 in
theorem swapping_suits : bare.SuitsAll (fun _ => true) [.load "swap" swapSource] := by
  obtain ⟨hdefinitions, horder⟩ :
      ((load swapDeclarations).outcome bare).2.definitions = [swap] ∧
        swap.isFirstOrder ((load swapDeclarations).outcome bare).2.registry
          ((load swapDeclarations).outcome bare).2.callable
          (Inference.knows ((load swapDeclarations).outcome bare).2.env) = true := by
    cbv
  refine ⟨fun decls hdecls => ?_, trivial⟩
  cases parseAll_swapSource.symm.trans hdecls
  refine ⟨fun d _ name _ => List.not_mem_nil, fun d _ name _ => List.not_mem_nil, fun d hd _ => ?_⟩
  rw [hdefinitions, List.mem_singleton] at hd
  exact hd ▸ ⟨horder, fun _ _ _ => rfl⟩

set_option maxRecDepth 4000 in
theorem keepsType_of_isFirstOrder_swap :
    ((check (.operation "f" [.object "T"])).outcome swapping).1 = .ok ⟨.data "B" "B" [], []⟩ ∧
      ((evaluate (.operation "f" [.object "T"])).outcome swapping).1 = .ok (.object "F") ∧
      swapping.KeepsType (.operation "f" [.object "T"]) := by
  -- Every part reads the same checker, so that they are evaluated together.
  obtain ⟨htype, hevaluate, hcore, hdrawn, hdrawn'⟩ :
      ((check (.operation "f" [.object "T"])).outcome swapping).1 = .ok ⟨.data "B" "B" [], []⟩ ∧
        ((evaluate (.operation "f" [.object "T"])).outcome swapping).1 = .ok (.object "F") ∧
        (Expr.operation "f" [.object "T"]).isCore swapping.registry
          (Inference.knows swapping.env) = true ∧
        ((check (.operation "f" [.object "T"])).outcome swapping).2.Unexhausted ∧
        ((check (.object "F")).outcome swapping).2.Unexhausted := by
    rw [swapping_eq]
    cbv
  refine ⟨htype, hevaluate, keepsType_of_isFirstOrder (fun _ => true) ⟨false, false, 0, true, false⟩
    [.load "swap" swapSource] swapping_suits _ hcore ?_ (fun _ _ _ => rfl) hdrawn
    fun value hvalue => ?_⟩
  · simp [Expr.isFirstOrder, Expr.isFirstOrderList]
  · cases hevaluate.symm.trans hvalue
    exact hdrawn'

/-- What a checker tells of an expression, and of a value that the expression may have. -/
def tells (c : Checker) (e value : Expr) :
    Except Error Verdict × Except Error Expr × Except Error Verdict :=
  (((check e).outcome c).1, ((evaluate e).outcome c).1, ((check value).outcome c).1)

theorem not_keepsType_of_error {c : Checker} {e value : Expr} {v : Verdict} {error : Error}
    (h : c.tells e value = (.ok v, .ok value, .error error)) : ¬c.KeepsType e := by
  intro hkeeps
  simp only [tells, Prod.mk.injEq] at h
  obtain ⟨w, hw, -⟩ := hkeeps v value h.1 h.2.1
  cases h.2.2.symm.trans hw

theorem not_keepsType_of_type {c : Checker} {e value : Expr} {v w : Verdict}
    (hcheck : ((check e).outcome c).1 = .ok v) (hevaluate : ((evaluate e).outcome c).1 = .ok value)
    (hvalue : ((check value).outcome c).1 = .ok w) (htype : ∀ θ, v.type ≠ w.type.bind θ) :
    ¬c.KeepsType e := by
  intro h
  obtain ⟨w', hw', θ, -, hinstance⟩ := h v value hcheck hevaluate
  cases hvalue.symm.trans hw'
  exact htype θ hinstance

theorem exists_check_of_supply {c : Checker} {e : Expr} {t : Ty} {supply : Supply}
    (hsupply : c.inference.supply = supply) (h : ∀ s : Inference.State, s.supply = supply →
      ((Inference.inferExpr c.context c.env e).outcome s).1 = .ok t) :
    ∃ warnings, ((check e).outcome c).1 = .ok ⟨t, warnings⟩ :=
  ⟨_, check_of_inferExpr (Prod.ext (h c.inference hsupply) rfl)⟩

/-- A definition that applies its parameter. -/
def applying : Checker := bare.loaded [[
  .definition ⟨"app", [⟨"f", none⟩, ⟨"x", none⟩], none, .operation "f" [.object "x"]⟩]]

set_option maxRecDepth 4000 in
theorem not_keepsType_applying :
    ¬applying.KeepsType (.operation "app" [.object "h", .const "1"]) := by
  have htells : applying.tells (.operation "app" [.object "h", .const "1"])
      (.operation "f" [.const "1"]) =
      (.ok ⟨.var 7, []⟩, .ok (.operation "f" [.const "1"]),
        .error (.fault (.unknownOperation "f" ""))) := by
    cbv
  exact not_keepsType_of_error htells

/-- A definition that calls an operation of a structure. -/
def operating : Checker := bare.loaded [negation, [
  .definition ⟨"f", [⟨"x", none⟩], none, .operation "neg" [.object "x"]⟩]]

set_option maxRecDepth 4000 in
theorem not_keepsType_operating : ¬operating.KeepsType (.operation "f" [.object "T"]) := by
  have htells : operating.tells (.operation "f" [.object "T"]) (.operation "neg" [.object "T"]) =
      (.ok ⟨.data "B" "B" [], []⟩, .ok (.operation "neg" [.object "T"]),
        .error (.fault (.notImplemented "N" "neg" [.data "B" "B" []]))) := by
    cbv
  exact not_keepsType_of_error htells

/-- Definitions that refer to names that nothing declares. -/
def referring : Checker := bare.loaded [[
  .definition ⟨"f", [], none, .object "y"⟩,
  .definition ⟨"k", [⟨"x", some (.named "ℝ")⟩],
    some (.arrow (.arrow (.named "ℝ") (.named "ℝ")) (.named "ℝ")), .object "z"⟩]]

set_option maxRecDepth 4000 in
theorem not_keepsType_referring :
    ¬referring.KeepsType (.operation "k" [.object "f", .object "f"]) := by
  have htells : referring.tells (.operation "k" [.object "f", .object "f"])
      (.operation "k" [.object "y", .object "y"]) =
      (.ok ⟨.scalar, []⟩, .ok (.operation "k" [.object "y", .object "y"]),
        .error (.fault (.unify (.mismatch (.fn .scalar .scalar) .scalar)))) := by
    cbv
  exact not_keepsType_of_error htells

/-- A definition that builds a value of the type level, from a dimension. -/
def measuring : Checker := bare.loaded [[
  .data ⟨"Type", [], [⟨"W", [⟨some "n", .named "Nat"⟩]⟩]⟩,
  .definition ⟨"f", [⟨"n", none⟩], none, .operation "W" [.object "n"]⟩]]

set_option maxRecDepth 4000 in
theorem not_keepsType_measuring : ¬measuring.KeepsType (.operation "f" [.const "5"]) := by
  obtain ⟨hcheck, hevaluate, hsupply⟩ :
      ((check (.operation "f" [.const "5"])).outcome measuring).1 =
          .ok ⟨.data "Type" "W" [.var 4], []⟩ ∧
        ((evaluate (.operation "f" [.const "5"])).outcome measuring).1 =
          .ok (.operation "W" [.const "5"]) ∧
        measuring.inference.supply = ⟨0, 3, 0⟩ := by
    cbv
    exact ⟨rfl, trivial⟩
  have hinfer : ∀ s : Inference.State, s.supply = ⟨0, 3, 0⟩ →
      ((Inference.inferExpr measuring.context measuring.env (.operation "W" [.const "5"])).outcome
        s).1 = .ok (.data "Type" "W" [.nat 5]) := by
    rintro ⟨_, _, _, _, _, _, _⟩ rfl
    cbv
  obtain ⟨warnings, hvalue⟩ := exists_check_of_supply hsupply hinfer
  exact not_keepsType_of_type hcheck hevaluate hvalue fun θ => by simp [Ty.bind, Ty.bindList]

/-- A variant that takes the name of a definition. -/
def retaking : Checker := bare.loaded [
  [.definition ⟨"f", [⟨"x", some (.named "ℝ")⟩], none, .const "1"⟩],
  [.data ⟨"D", [], [⟨"f", [⟨none, .named "ℝ"⟩]⟩]⟩]]

set_option maxRecDepth 4000 in
theorem not_keepsType_retaking : ¬retaking.KeepsType (.operation "f" [.const "1"]) := by
  have htells : retaking.tells (.operation "f" [.const "1"]) (.const "1") =
      (.ok ⟨.data "D" "D" [], []⟩, .ok (.const "1"), .ok ⟨.scalar, []⟩) := by
    cbv
  simp only [tells, Prod.mk.injEq] at htells
  exact not_keepsType_of_type htells.1 htells.2.1 htells.2.2 fun θ => by
    simp [Ty.scalar, Ty.variant, Ty.bind]

/-- A data type that takes a name that has been written for another type. -/
def renewing : Checker := bare.loaded [
  [.data ⟨"D", [], [⟨"M", [⟨none, .named "Real"⟩]⟩]⟩,
    .definition ⟨"f", [⟨"x", none⟩], none, .operation "M" [.object "x"]⟩],
  [.data ⟨"Real", [], [⟨"O", []⟩]⟩]]

set_option maxRecDepth 4000 in
theorem not_keepsType_renewing : ¬renewing.KeepsType (.operation "f" [.const "1"]) := by
  have htells : renewing.tells (.operation "f" [.const "1"]) (.operation "M" [.const "1"]) =
      (.ok ⟨.data "D" "D" [], []⟩, .ok (.operation "M" [.const "1"]),
        .error (.fault (.unify (.mismatch (.data "Real" "Real" []) .scalar)))) := by
    cbv
  exact not_keepsType_of_error htells

/-- What an expression evaluates to may have no type, or one of which the type of the expression is no
instance: where a parameter is applied, where an operation of a structure is called, where a
definition refers to a name that nothing declares, where a field stands for a dimension, and where a
load takes the name of a definition for a variant or a name that has been written for a type. -/
theorem evaluation_changes_types :
    ¬applying.KeepsType (.operation "app" [.object "h", .const "1"]) ∧
      ¬operating.KeepsType (.operation "f" [.object "T"]) ∧
      ¬referring.KeepsType (.operation "k" [.object "f", .object "f"]) ∧
      ¬measuring.KeepsType (.operation "f" [.const "5"]) ∧
      ¬retaking.KeepsType (.operation "f" [.const "1"]) ∧
      ¬renewing.KeepsType (.operation "f" [.const "1"]) :=
  ⟨not_keepsType_applying, not_keepsType_operating, not_keepsType_referring,
    not_keepsType_measuring, not_keepsType_retaking, not_keepsType_renewing⟩

end Checker

end Formulary
