import Formulary.Proofs.Completeness
import Formulary.Proofs.Framing
import Formulary.Proofs.History
import Formulary.Proofs.Parameters
import Formulary.Proofs.WellFormed

namespace Formulary

namespace Inference

variable {c : Context} {env : TypeEnv} {e : Expr}

/-- A name that nothing declares. -/
def Unbound (c : Context) (env : TypeEnv) (name : String) : Prop :=
  knows env name = false ∧ c.registry.isOpen name = true

instance (c : Context) (env : TypeEnv) (name : String) : Decidable (Unbound c env name) :=
  inferInstanceAs (Decidable (_ ∧ _))

/-- Two expressions have no unbound name in common. -/
def Apart (c : Context) (env : TypeEnv) (e e' : Expr) : Prop :=
  ∀ name ∈ e.freeObjects [], name ∈ e'.freeObjects [] → ¬Unbound c env name

/-- Nothing is known, and variables are numbered on. -/
def State.alone (s : State) : State := { s with subst := ∅, free := [], warnings := [] }

theorem State.Sound.alone {s : State} (h : s.Sound) : s.alone.Sound where
  subst := ⟨Subst.settled_empty, Subst.within_empty⟩
  held := h.held
  free _ hv := absurd hv List.not_mem_nil

/-- All that is known is about variables that have been handed out. -/
theorem State.Sound.frames {s : State} (h : s.Sound) {visible : String → Prop}
    (hfree : ∀ name, visible name → s.free.lookup name = none) :
    s.alone.Frames s.supply.next visible s where
  supply := rfl
  above := le_refl s.supply.next
  image x hx := by
    refine Subst.image_of_get?_eq_none (Option.eq_none_iff_forall_ne_some.2 fun t ht => ?_)
    have hlt := (h.subst.2 x t ht).1
    omega
  within x hx := Ty.within_var hx
  free name hname := hfree name hname
  freeAbove _ hv := absurd hv List.not_mem_nil

theorem inScopeOf_of_isClosed (h : env.IsClosed) (F : Int → Prop) (n : Int) :
    env.inScopeOf F n := by
  intro x t hx
  have hclosed := h x t hx
  simp only [Ty.isClosedScheme, Bool.and_eq_true, List.isEmpty_iff] at hclosed
  refine ⟨h.inScope n x t hx, fun y hy => ?_⟩
  rw [hclosed.2] at hy
  exact absurd hy List.not_mem_nil

theorem exists_returns_of_alone {s s' : State} {t : Ty} (hs : s.Sound)
    (hu : ((infer c env e).outcome s).2.supply.Unwrapped) (hwhole : c.registry.isWhole = true)
    (henv : closedEnv env s.supply.next) (h : (infer c env e).Returns s.alone t s')
    (hnew : ∀ name ∈ e.freeObjects [], Unbound c env name → s.free.lookup name = none) :
    ∃ s₁, (infer c env e).Returns s t s₁ ∧ ∀ name, ¬(name ∈ e.freeObjects [] ∧ Unbound c env name) →
      s₁.free.lookup name = s.free.lookup name := by
  have hframed : Framed s.supply.next (fun name => name ∈ e.freeObjects [] ∧ Unbound c env name) _
      (infer c env e) _ := infer_framed env [] e
  have hlooksUp : LooksUp c env (fun name => name ∈ e.freeObjects [] ∧ Unbound c env name) []
      (e.freeObjects []) :=
    ⟨fun _ h => absurd h List.not_mem_nil, fun name hname hknows hopen => ⟨hname, hknows, hopen⟩⟩
  obtain ⟨-, -, s₁, hrun, -, hkept⟩ := hframed.frames s.alone s hs.alone
    ⟨⟨⟨hwhole, inScopeOf_of_isClosed henv.1 _ _⟩, isWhole_of_infer h⟩, hlooksUp⟩
    (hs.frames fun name hname => hnew name hname.1 hname.2) hu t s' h
  exact ⟨s₁, hrun, hkept⟩

theorem exists_returns_inferList {args : List Expr} {s : State} (hs : s.Sound)
    (hu : ((inferList c env args).outcome s).2.supply.Unwrapped) (hwhole : c.registry.isWhole = true)
    (henv : closedEnv env s.supply.next)
    (halone : ∀ a ∈ args, ∀ s : State, ∃ t s', (infer c env a).Returns s.alone t s')
    (hapart : args.Pairwise (Apart c env))
    (hnew : ∀ a ∈ args, ∀ name ∈ a.freeObjects [], Unbound c env name → s.free.lookup name = none) :
    ∃ ts s', (inferList c env args).Returns s ts s' := by
  induction args generalizing s with
  | nil => exact ⟨[], s, rfl⟩
  | cons a rest ih =>
      obtain ⟨halone, halones⟩ := List.forall_mem_cons.1 halone
      obtain ⟨hapart, haparts⟩ := List.pairwise_cons.1 hapart
      obtain ⟨hnew, hnews⟩ := List.forall_mem_cons.1 hnew
      rw [inferList] at hu ⊢
      have hgrows : ∀ t s, s.supply ≤ (Attempt.outcome (do
          return t :: (← inferList c env rest) : Infer (List Ty)) s).2.supply := by
        have hkeeps : ∀ t, Keeps inferWatch ⊥ (do return t :: (← inferList c env rest))
            fun _ => ⊤ := fun t => ((inferList_keeps c env rest).of_pre fun _ (h : False) => h.elim).bind
          fun _ => .pure fun _ _ => trivial
        exact fun t s => (hkeeps t).grows s
      have hu₁ : ((infer c env a).outcome s).2.supply.Unwrapped :=
        hu.of_le (Succeeds.supply_le_bind (w := inferView) hgrows s)
      obtain ⟨t, s', hfirst⟩ := halone s
      obtain ⟨s₁, hfirst₁, hkept⟩ := exists_returns_of_alone hs hu₁ hwhole henv hfirst hnew
      rw [Attempt.outcome_bind, hfirst₁] at hu
      rw [hfirst₁] at hu₁
      obtain ⟨hs₁, -, hle⟩ := (infer_keeps c env a).of_returns hfirst₁ hu₁ hs
        ⟨⟨hwhole, henv.1.inScope _⟩, isWhole_of_infer hfirst⟩
      have hu₂ : ((inferList c env rest).outcome s₁).2.supply.Unwrapped :=
        hu.of_le (Succeeds.supply_le_bind (w := inferView) (fun _ _ => le_rfl) s₁)
      have hnews₁ : ∀ b ∈ rest, ∀ name ∈ b.freeObjects [], Unbound c env name →
          s₁.free.lookup name = none := fun b hb name hname hunbound =>
        (hkept name fun h => hapart b hb name h.1 hname h.2).trans (hnews b hb name hname hunbound)
      obtain ⟨ts, s₂, hrest⟩ :=
        ih hs₁ hu₂ ((closedEnv env).mono hle henv) halones haparts hnews₁
      exact ⟨t :: ts, s₂, Attempt.returns_bind_iff.2 ⟨t, s₁, hfirst₁,
        Attempt.returns_bind_iff.2 ⟨ts, s₂, hrest, rfl⟩⟩⟩

theorem length_uncurry_curry (params : List Ty) (result : Ty) :
    (Ty.curry params result).uncurry.1.length = params.length + result.uncurry.1.length := by
  induction params with
  | nil => exact (Nat.zero_add _).symm
  | cons p rest ih =>
      show (Ty.curry rest result).uncurry.1.length + 1 = _
      rw [ih, List.length_cons]
      omega

theorem arity?_curry_eq_some_iff {params : List Ty} {result : Ty} {n : Nat} :
    arity? (Ty.curry params result) = some n ↔
      ¬(params = [] ∧ ∃ x, result = .var x) ∧ n = params.length + result.uncurry.1.length := by
  have hknown : ∀ t : Ty, (¬∃ x, t = .var x) → arity? t = some t.uncurry.1.length := by
    intro t ht
    cases t with
    | var x => exact absurd ⟨x, rfl⟩ ht
    | _ => rfl
  by_cases hvar : params = [] ∧ ∃ x, result = .var x
  · obtain ⟨rfl, x, rfl⟩ := hvar
    simp [Ty.curry, arity?]
  · have hfn : ¬∃ x, Ty.curry params result = .var x := by
      cases params with
      | nil => exact fun h => hvar ⟨rfl, h⟩
      | cons p rest => rintro ⟨x, ⟨⟩⟩
    rw [hknown _ hfn, length_uncurry_curry, Option.some.injEq]
    exact ⟨fun h => ⟨hvar, h.symm⟩, fun h => h.2.symm⟩

theorem exists_asDimensions_of_applyTo {requirer : Requirer} {fn : Ty} {args : List Ty} {f : Fault}
    {s s' : State} (h : (applyTo c e requirer fn args).outcome s = (.error f, s')) :
    ∃ error, f = asDimensions requirer (.unify error) := by
  obtain ⟨result, s₁, hfresh⟩ := returns_freshVar s
  obtain ⟨line, hunify⟩ := outcome_unify c fn (Ty.curry args result) s₁
  rw [applyTo, Attempt.outcome_bind, hfresh] at h
  dsimp only at h
  rw [Attempt.outcome_bind, unifyFor, Attempt.outcome_tryCatch, hunify] at h
  cases hfound : Ty.unify (s₁.subst.apply fn) (s₁.subst.apply (Ty.curry args result)) with
  | ok found =>
      rw [hfound] at h
      cases h
  | error error =>
      rw [hfound] at h
      cases h
      exact ⟨error, rfl⟩

theorem kind_asDimensions_ne {requirer : Requirer} {error : UnifyError}
    (h : (asDimensions requirer (.unify error)).IsAligned) :
    (asDimensions requirer (.unify error)).kind ≠ .arityMismatch := by
  cases error with
  | mismatch expected actual =>
      rw [asDimensions]
      split <;> simp [Fault.kind, UnifyError.kind]
  | arity expected actual constructor => exact absurd h id
  | occurs | quantified => simp [asDimensions, Fault.kind, UnifyError.kind]

theorem inferCall_refuses_iff {name : String} {args : List Expr} {types : List Ty} {scheme : Ty}
    {s : State} {p : Ty → Prop} (hvariant : c.data.variant? name = none) (hget : env.get? name = some scheme)
    (hclosed : scheme.isClosedScheme = true) (hs : s.Sound)
    (hu : ((inferCall c env name args types).outcome s).2.supply.Unwrapped)
    (haligned : Ends p Fault.IsAligned ((inferCall c env name args types).outcome s).1) :
    (∃ f, ((inferCall c env name args types).outcome s).1 = .error f ∧ f.kind = .arityMismatch) ↔
      ∃ n, arity? scheme.unquantify.2 = some n ∧ n ≠ types.length := by
  have hcall : inferCall c env name args types =
      inferApplication c (.operation name args) name scheme types := by
    rw [inferCall, hvariant, hget]
    rfl
  rw [hcall] at hu haligned ⊢
  obtain ⟨fn, s₁, hfn⟩ := returns_instantiate scheme s
  rcases inferApplication_cases c (.operation name args) name types hfn with
    ⟨n, hn, hne, s₂, hrefused, hsupply⟩ | ⟨htakes, happly⟩
  · rw [hrefused] at hu ⊢
    have hu : s₁.supply.Unwrapped := hsupply ▸ hu
    obtain ⟨hsame, harity⟩ := apply_of_instantiate hfn hs hu hclosed
    rw [hsame, harity] at hn
    exact ⟨fun _ => ⟨n, hn, hne⟩, fun _ => ⟨_, rfl, rfl⟩⟩
  · rw [happly] at hu haligned ⊢
    have hu₁ : s₁.supply.Unwrapped := hu.of_le ((applyTo_finds c _ _ fn types).grows s₁)
    obtain ⟨hsame, harity⟩ := apply_of_instantiate hfn hs hu₁ hclosed
    rw [hsame, harity] at htakes
    constructor
    · rintro ⟨f, hf, hkind⟩
      rw [hf] at haligned
      obtain ⟨error, rfl⟩ := exists_asDimensions_of_applyTo (Prod.ext hf rfl)
      exact absurd hkind (kind_asDimensions_ne haligned)
    · rintro ⟨n, hn, hne⟩
      exact absurd (htakes n hn) hne

end Inference

namespace Checker

/-- An expression passes. -/
def Accepts (c : Checker) (e : Expr) : Prop := ∃ v, ((check e).outcome c).1 = .ok v

/-- An expression is refused with an error of some kind. -/
def Refuses (c : Checker) (e : Expr) (kind : FaultKind) : Prop :=
  ∃ error, ((check e).outcome c).1 = .error error ∧ error.kind? = some kind

theorem refuses_of_told {c : Checker} {e : Expr} {kind : FaultKind}
    (h : told ((check e).outcome c).1 = .error (some kind)) : c.Refuses e kind := by
  cases hcheck : ((check e).outcome c).1 with
  | ok v =>
      rw [hcheck] at h
      cases h
  | error error =>
      rw [hcheck] at h
      exact ⟨error, hcheck, Except.error.inj h⟩

/-- What passes has a type, however variables are numbered. -/
theorem Accepts.exists_returns {c : Checker} {e : Expr} (h : c.Accepts e) (hc : c.Reachable)
    (s : Inference.State) :
    ∃ t s', (Inference.infer c.context c.env e).Returns s.alone t s' := by
  obtain ⟨v, hv⟩ := h
  have hcheck : (check e).Returns c v ((check e).outcome c).2 := Prod.ext hv rfl
  obtain ⟨u, s₁, hinfer, -⟩ := Inference.returns_inferExpr (returns_check hcheck)
  obtain ⟨M, hsupply, hagree, hnames⟩ :=
    hc.exists_mirror c.inference.reset.supply s.alone.supply
  have hlike := Inference.infer_mirrors hagree (e := e) (fun name _ => hnames name)
    c.inference.reset s.alone ⟨hsupply, Mirror.showsSubst_empty, rfl, rfl⟩
  unfold Attempt.Returns at hinfer
  rw [hinfer] at hlike
  cases hrun : (Inference.infer c.context c.env e).outcome s.alone with
  | mk r s' =>
      rw [hrun] at hlike
      cases r with
      | ok t => exact ⟨t, s', hrun⟩
      | error f => exact hlike.elim

theorem refuses_iff {c : Checker} {e : Expr} {kind : FaultKind} (hc : c.Sound) (he : e.isWhole = true)
    (hu : ((Inference.infer c.context c.env e).outcome c.inference.reset).2.supply.Unwrapped) :
    c.Refuses e kind ↔ ∃ f, ((Inference.infer c.context c.env e).outcome c.inference.reset).1 =
      .error f ∧ f.kind = kind := by
  have hne : e ≠ .blank := by
    rintro rfl
    cases he
  have hreset := Inference.outcome_inferExpr c.context c.env hne c.inference
  rw [Attempt.outcome_bind] at hreset
  cases hinfer : (Inference.infer c.context c.env e).outcome c.inference.reset with
  | mk r s =>
      rw [hinfer] at hreset hu
      cases r with
      | error f =>
          unfold Refuses
          rw [outcome_check_of_error hreset]
          constructor
          · rintro ⟨_, ⟨⟩, hkind⟩
            exact ⟨f, rfl, Option.some.inj hkind⟩
          · rintro ⟨_, ⟨⟩, hkind⟩
            exact ⟨_, rfl, congrArg some hkind⟩
      | ok t =>
          obtain ⟨hs, -, -⟩ := (Inference.infer_keeps c.context c.env e).of_returns hinfer hu
            hc.inference.reset ⟨⟨hc.registry, hc.env.1.inScope _⟩, he⟩
          have hs : s.Sound := hs
          obtain ⟨lines, hsettle⟩ := Inference.outcome_settleType c.context e t
            (hs.subst.1.isIdempotent hs.subst.2.monoRange)
          unfold Refuses
          rw [outcome_check_of_ok (hreset.trans hsettle)]
          constructor
          · rintro ⟨_, ⟨⟩, -⟩
          · rintro ⟨_, ⟨⟩, -⟩

theorem supply_le_check (c : Checker) {e : Expr} (he : e ≠ .blank) :
    ((Inference.infer c.context c.env e).outcome c.inference.reset).2.supply ≤
      ((check e).outcome c).2.inference.supply := by
  have hle : ((Inference.infer c.context c.env e).outcome c.inference.reset).2.supply ≤
      ((Inference.inferExpr c.context c.env e).outcome c.inference).2.supply := by
    rw [Inference.outcome_inferExpr c.context c.env he]
    exact Succeeds.supply_le_bind (w := Inference.inferView) (Inference.settleType_grows c.context e) _
  cases hinfer : (Inference.inferExpr c.context c.env e).outcome c.inference with
  | mk r s =>
      rw [hinfer] at hle
      cases r with
      | ok t =>
          rw [outcome_check_of_ok hinfer]
          exact hle
      | error f =>
          rw [outcome_check_of_error hinfer]
          exact hle

/-- A checker that knew the data types of the standard library before anything else. -/
def KnowsLibrary (c : Checker) : Prop :=
  ∃ options rs, c = (create options).after rs ∧ (options.bare = false ∨ ∃ name source rest,
    rs = .load name source :: rest ∧ Declaration.parseAll source = .ok StandardLibrary.dataTypes)

theorem KnowsLibrary.reachable {c : Checker} (h : c.KnowsLibrary) : c.Reachable :=
  let ⟨options, rs, hc, _⟩ := h
  ⟨options, rs, hc⟩

theorem KnowsLibrary.formed {c : Checker} (h : c.KnowsLibrary) : c.Formed := by
  obtain ⟨options, rs, rfl, hlibrary⟩ := h
  cases hbare : options.bare with
  | false => exact (after_formed (create_formed hbare) rs).1
  | true =>
      rw [hbare] at hlibrary
      obtain ⟨name, source, rest, rfl, hparse⟩ := hlibrary.resolve_left Bool.noConfusion
      refine (after_formed ?_ rest).1
      rw [create_eq, hbare, state_load_request hparse]
      exact loadDataTypes_forms options

/-- A call of a definition whose arguments pass one by one is refused for their number where the type of
the definition is not just a variable and takes another number: its parameters and, behind them, the
ones of its result. -/
theorem call_refused_iff {c : Checker} (hc : c.KnowsLibrary) {d : Definition} {args : List Expr}
    (hd : d ∈ c.definitions) (hvariant : c.registry.data.variant? d.name = none)
    (haccepts : ∀ a ∈ args, c.Accepts a) (hapart : args.Pairwise (Inference.Apart c.context c.env))
    (hu : ((check (.operation d.name args)).outcome c).2.Unexhausted) :
    ∃ scheme params result, c.env.get? d.name = some scheme ∧
      scheme.unquantify.2 = Ty.curry params result ∧ params.length = d.params.length ∧
      (c.Refuses (.operation d.name args) .arityMismatch ↔
        ¬(d.params = [] ∧ ∃ x, result = .var x) ∧
          args.length ≠ d.params.length + result.uncurry.1.length) := by
  have hreachable := hc.reachable
  have hu : ((check (.operation d.name args)).outcome c).2.inference.supply.Unwrapped :=
    hreachable.unwrapped_of_le ((check_keeps _).grows c) hu
  have hu₁ := hu.of_le (supply_le_check c (e := .operation d.name args) Expr.noConfusion)
  have hu₀ : c.inference.supply.Unwrapped := hu.of_le ((check_keeps _).grows c)
  have hsound := hreachable.sound hu₀
  obtain ⟨scheme, hget, params, result, hscheme, hlength⟩ := hreachable.arranged hu₀ d hd
  refine ⟨scheme, params, result, hget, hscheme, hlength, ?_⟩
  have hargs : ∀ a ∈ args, ∀ s : Inference.State,
      ∃ t s', (Inference.infer c.context c.env a).Returns s.alone t s' := fun a ha s =>
    (haccepts a ha).exists_returns hreachable s
  have hu₂ : ((Inference.inferList c.context c.env args).outcome
      c.inference.reset).2.supply.Unwrapped := by
    rw [Inference.infer] at hu₁
    refine hu₁.of_le (Succeeds.supply_le_bind (w := Inference.inferView) (fun types s => ?_) _)
    exact (Inference.inferCall_keeps c.context c.env d.name args types).grows s
  obtain ⟨types, s₁, hlist⟩ := Inference.exists_returns_inferList hsound.inference.reset hu₂
    hsound.registry hsound.env hargs hapart fun _ _ _ _ _ => rfl
  have hwhole : (Expr.operation d.name args).isWhole = true := Inference.isWholeList_of_inferList hlist
  have hcall : (Inference.infer c.context c.env (.operation d.name args)).outcome c.inference.reset =
      (Inference.inferCall c.context c.env d.name args types).outcome s₁ := by
    rw [Inference.infer, Attempt.outcome_bind, hlist]
  have haligned := (Inference.infer_forms (c := c.context) hc.formed.grounded hc.formed.types.env
    (.operation d.name args) _ hc.formed.types.inference.reset).2
  rw [hlist] at hu₂
  obtain ⟨hs₁, -, -⟩ := (Inference.inferList_keeps c.context c.env args).of_returns hlist hu₂
    hsound.inference.reset ⟨⟨hsound.registry, hsound.env.1.inScope _⟩, hwhole⟩
  rw [refuses_iff hsound hwhole hu₁]
  rw [hcall] at hu₁ haligned ⊢
  rw [Inference.inferCall_refuses_iff (c := c.context) hvariant hget
    (hsound.env.1 d.name scheme hget) hs₁ hu₁ haligned, hscheme,
    Inference.length_of_inferList hlist]
  have hnone : params = [] ↔ d.params = [] := by
    rw [← List.length_eq_zero_iff, hlength, List.length_eq_zero_iff]
  constructor
  · rintro ⟨n, hn, hne⟩
    obtain ⟨hvar, rfl⟩ := Inference.arity?_curry_eq_some_iff.1 hn
    exact ⟨fun h => hvar ⟨hnone.2 h.1, h.2⟩, hlength ▸ hne.symm⟩
  · rintro ⟨hvar, hne⟩
    exact ⟨_, Inference.arity?_curry_eq_some_iff.2 ⟨fun h => hvar ⟨hnone.1 h.1, h.2⟩, rfl⟩,
      hlength ▸ hne.symm⟩

/-- The data types of the standard library as they are written. -/
def libraryText : String :=
  "data Type = Scalar | Vector(n : Nat, T : Type) | Matrix(m : Nat, n : Nat, T : Type)
data Bool = True | False
data Option(T) = None | Some(T)
data List(T) = Nil | Cons(T, List(T))"

/-- A definition whose result is a function. -/
def constantly : Definition := ⟨"constantly", [⟨"x", none⟩], none, .object "same"⟩

/-- A checker that knows the data types of the library and a definition whose result is a function. -/
def currying : Checker :=
  (create ⟨false, false, 0, true, false⟩).after
    [.load "library" libraryText, .load "functions" "define same(y) = y define constantly(x) = same"]

theorem parseAll_libraryText : Declaration.parseAll libraryText = .ok StandardLibrary.dataTypes := by
  cbv

theorem currying_knowsLibrary : currying.KnowsLibrary :=
  ⟨_, _, rfl, .inr ⟨_, _, _, rfl, parseAll_libraryText⟩⟩

theorem currying_eq : currying = ((load [.definition ⟨"same", [⟨"y", none⟩], none, .object "y"⟩,
    .definition constantly]).outcome ((load StandardLibrary.dataTypes).outcome
      (empty ⟨false, false, 0, true, false⟩)).2).2 := by
  have hparse : Declaration.parseAll "define same(y) = y define constantly(x) = same" =
      .ok [.definition ⟨"same", [⟨"y", none⟩], none, .object "y"⟩, .definition constantly] := by
    cbv
  rw [currying, after, after, after, state_load_request parseAll_libraryText, state_load_request hparse]
  rfl

theorem currying_shows :
    constantly ∈ currying.definitions ∧ currying.registry.data.variant? "constantly" = none ∧
      currying.env.get? "constantly" =
        some (.poly 3 (.poly 4 (.fn (.var 3) (.fn (.var 4) (.var 4))))) ∧
      ((check (.const "1")).outcome currying).1 = .ok ⟨.scalar, []⟩ ∧
      ((check (.operation "constantly" [.const "1"])).outcome
        currying).2.inference.supply.drawn = 7 ∧
      told ((check (.operation "constantly" [.const "1"])).outcome currying).1 =
        .error (some .arityMismatch) ∧
      ((check (.operation "constantly" [.const "1", .const "1"])).outcome currying).1 =
        .ok ⟨.scalar, []⟩ := by
  rw [currying_eq]
  cbv
  exact ⟨.tail _ (.head _), rfl, trivial⟩

theorem call_refused_iff_constantly :
    currying.KnowsLibrary ∧ constantly ∈ currying.definitions ∧ currying.Accepts (.const "1") ∧
      currying.Refuses (.operation "constantly" [.const "1"]) .arityMismatch := by
  obtain ⟨hmem, hvariant, hget, hone, hdrawn, -, -⟩ := currying_shows
  have haccepts : currying.Accepts (.const "1") := ⟨_, hone⟩
  have hu : ((check (.operation "constantly" [.const "1"])).outcome currying).2.Unexhausted := by
    unfold Unexhausted
    rw [hdrawn]
    decide
  obtain ⟨scheme, params, result, hscheme, hcurry, hlength, hiff⟩ :=
    call_refused_iff currying_knowsLibrary hmem hvariant (List.forall_mem_singleton.2 haccepts)
      (List.pairwise_singleton _ _) hu
  obtain rfl := Option.some.inj (hget.symm.trans hscheme)
  obtain ⟨p, rfl⟩ := List.length_eq_one_iff.1 hlength
  obtain ⟨-, rfl⟩ := Ty.fn.inj hcurry
  exact ⟨currying_knowsLibrary, hmem, haccepts, hiff.2 ⟨fun h => List.cons_ne_nil _ _ h.1, by decide⟩⟩

/-- What is counted are not the parameters that are declared: a call with as many arguments is refused,
and one with an argument more passes. -/
theorem call_refused_as_declared :
    currying.KnowsLibrary ∧ constantly ∈ currying.definitions ∧ constantly.params.length = 1 ∧
      currying.Accepts (.const "1") ∧
      currying.Refuses (.operation "constantly" [.const "1"]) .arityMismatch ∧
      currying.Accepts (.operation "constantly" [.const "1", .const "1"]) := by
  obtain ⟨hmem, -, -, hone, -, hrefused, htwo⟩ := currying_shows
  exact ⟨currying_knowsLibrary, hmem, rfl, ⟨_, hone⟩, refuses_of_told hrefused, ⟨_, htwo⟩⟩

end Checker

end Formulary
