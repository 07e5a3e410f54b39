import Formulary.Proofs.Evaluating
import Formulary.Proofs.Calling

namespace Formulary

/-- Whether what has a scheme may be called with a number of arguments. A scheme that is all variable
does not tell how many it takes. -/
def Ty.takes (scheme : Ty) (n : Nat) : Bool := (Inference.arity? scheme.unquantify.2).all (· = n)

namespace Expr

mutual

/-- Whether no variable is applied, where `bound` are the variables around an expression: what is
called is a constructor, or a definition that `callable` allows to be called with as many
arguments. -/
def isFirstOrder (r : Registry) (callable : String → Nat → Bool) (bound : List String) : Expr → Bool
  | .blank | .const _ | .object _ => true
  | .operation name args =>
    ((r.data.variant? name).isSome || (!bound.contains name && callable name args.length)) &&
      isFirstOrderList r callable bound args
  | .matching scrutinee cases =>
    scrutinee.isFirstOrder r callable bound && isFirstOrderCases r callable bound cases

def isFirstOrderList (r : Registry) (callable : String → Nat → Bool) (bound : List String) :
    List Expr → Bool
  | [] => true
  | e :: es => e.isFirstOrder r callable bound && isFirstOrderList r callable bound es

def isFirstOrderCases (r : Registry) (callable : String → Nat → Bool) (bound : List String) :
    List (Pattern × Expr) → Bool
  | [] => true
  | (p, body) :: rest =>
    body.isFirstOrder r callable (p.vars ++ bound) && isFirstOrderCases r callable bound rest

end

mutual

/-- The free occurrences that some more names do not bind. -/
theorem mem_freeOccurrences_append (e : Expr) (bound more : List String) {name : String} :
    name ∈ e.freeOccurrences (bound ++ more) ↔ name ∈ e.freeOccurrences bound ∧ name ∉ more := by
  cases e with
  | blank | const value => simp [freeOccurrences]
  | object other =>
      simp only [freeOccurrences]
      grind
  | operation other args =>
      simp only [freeOccurrences, List.mem_append,
        mem_freeOccurrencesList_append args bound more]
      grind
  | matching scrutinee cases =>
      simp only [freeOccurrences, List.mem_append,
        mem_freeOccurrences_append scrutinee bound more,
        mem_freeOccurrencesCases_append cases bound more]
      tauto

theorem mem_freeOccurrencesList_append (es : List Expr) (bound more : List String) {name : String} :
    name ∈ freeOccurrencesList (bound ++ more) es ↔
      name ∈ freeOccurrencesList bound es ∧ name ∉ more := by
  match es with
  | [] => simp [freeOccurrencesList]
  | e :: es =>
      simp only [freeOccurrencesList, List.mem_append,
        mem_freeOccurrences_append e bound more,
        mem_freeOccurrencesList_append es bound more]
      tauto

theorem mem_freeOccurrencesCases_append (cases : List (Pattern × Expr)) (bound more : List String)
    {name : String} : name ∈ freeOccurrencesCases (bound ++ more) cases ↔
      name ∈ freeOccurrencesCases bound cases ∧ name ∉ more := by
  match cases with
  | [] => simp [freeOccurrencesCases]
  | (p, body) :: rest =>
      simp only [freeOccurrencesCases, List.mem_append, ← List.append_assoc,
        mem_freeOccurrences_append body (p.vars ++ bound) more,
        mem_freeOccurrencesCases_append rest bound more]
      tauto

end

theorem notMem_of_mem_freeOccurrences {e : Expr} {vars bound : List String} {name : String}
    (h : name ∈ e.freeOccurrences (vars ++ bound)) : name ∉ vars := by
  have hvars := ((e.mem_freeOccurrences_append vars bound).1 h).1
  rw [← List.nil_append vars, e.mem_freeOccurrences_append [] vars] at hvars
  exact hvars.2

variable {r : Registry}

mutual

theorem isCore_of_agree {e : Expr} {known known' : String → Bool} {bound : List String}
    (h : e.isCore r known = true)
    (hfree : ∀ name ∈ e.freeOccurrences bound, known name = known' name)
    (hbound : ∀ name ∈ bound, known name = known' name) : e.isCore r known' = true := by
  cases e with
  | blank => cases h
  | const value => rfl
  | object name =>
      have hname : known name = known' name := by
        by_cases hmem : name ∈ bound
        · exact hbound name hmem
        · exact hfree name (by simp [freeOccurrences, hmem])
      rw [isCore] at h ⊢
      exact hname ▸ h
  | operation name args =>
      obtain ⟨hhead, hargs⟩ := List.forall_mem_append.1 hfree
      have hname : known name = known' name := by
        by_cases hmem : name ∈ bound
        · exact hbound name hmem
        · exact hhead name (by simp [hmem])
      rw [isCore, Bool.and_eq_true] at h ⊢
      exact ⟨hname ▸ h.1, isCoreList_of_agree h.2 hargs hbound⟩
  | matching scrutinee cases =>
      obtain ⟨hscrutinee, hcases⟩ := List.forall_mem_append.1 hfree
      rw [isCore, Bool.and_eq_true] at h ⊢
      exact ⟨isCore_of_agree h.1 hscrutinee hbound, isCoreCases_of_agree h.2 hcases hbound⟩

theorem isCoreList_of_agree {es : List Expr} {known known' : String → Bool} {bound : List String}
    (h : isCoreList r known es = true)
    (hfree : ∀ name ∈ freeOccurrencesList bound es, known name = known' name)
    (hbound : ∀ name ∈ bound, known name = known' name) : isCoreList r known' es = true := by
  match es with
  | [] => rfl
  | e :: es =>
      obtain ⟨hfirst, hrest⟩ := List.forall_mem_append.1 hfree
      rw [isCoreList, Bool.and_eq_true] at h ⊢
      exact ⟨isCore_of_agree h.1 hfirst hbound, isCoreList_of_agree h.2 hrest hbound⟩

theorem isCoreCases_of_agree {cases : List (Pattern × Expr)} {known known' : String → Bool} {bound : List String}
    (h : isCoreCases r known cases = true)
    (hfree : ∀ name ∈ freeOccurrencesCases bound cases, known name = known' name)
    (hbound : ∀ name ∈ bound, known name = known' name) : isCoreCases r known' cases = true := by
  match cases with
  | [] => rfl
  | (p, body) :: rest =>
      obtain ⟨hfirst, hrest⟩ := List.forall_mem_append.1 hfree
      rw [isCoreCases, Bool.and_eq_true] at h ⊢
      refine ⟨isCore_of_agree h.1
        (fun name (hname : name ∈ body.freeOccurrences (p.vars ++ bound)) => ?_)
        (fun name hname => ?_), isCoreCases_of_agree h.2 hrest hbound⟩
      · rw [hfirst name hname]
      · by_cases hvar : name ∈ p.vars
        · simp [hvar]
        · rw [hbound name ((List.mem_append.1 hname).resolve_left hvar)]

end

end Expr

/-- What a name that is no variable stands for: a definition has every type that is used of it, and
a name that nothing declares has the type that it is given. -/
structure Setting.Serves (S : Setting) (D Γ : Naming) (name : String) : Prop where
  defined : ∀ scheme, Γ name = some scheme →
    ∃ scheme', S.schemes name = some scheme' ∧ ∀ t, scheme.Instance t → scheme'.Instance t
  free : Γ name = none → S.registry.isOpen name = true → S.schemes name = none ∧ S.free name = D name

/-- Variables have the same types in one place and in another. -/
def Naming.Extends (Γ L : Naming) : Prop := ∀ name t, L name = some t → Γ name = some t

theorem Naming.Extends.eq_none {Γ L : Naming} (h : Γ.Extends L) {name : String}
    (hname : Γ name = none) : L name = none := by
  cases hL : L name with
  | none => rfl
  | some t => cases hname.symm.trans (h name t hL)

theorem Naming.Extends.over {Γ L : Naming} (h : Γ.Extends L) (B : Naming) :
    (Γ.over B).Extends (L.over B) := by
  intro name t hname
  cases hB : B name with
  | some u =>
      rw [Naming.over_of_some hB] at hname ⊢
      exact hname
  | none =>
      rw [Naming.over_of_none hB] at hname ⊢
      exact h name t hname

namespace Setting

variable {S : Setting} {D : Naming} {callable : String → Nat → Bool}

/-- Around a pattern, what is no variable stands for the same as within its case. -/
theorem Serves.over {Γ B : Naming} {name : String} (h : S.Serves D Γ name) (hB : B name = none) :
    S.Serves D (Γ.over B) name := by
  have hsame : Γ.over B name = Γ name := Naming.over_of_none hB
  exact ⟨fun scheme hname => h.defined scheme (hsame ▸ hname), fun hname => h.free (hsame ▸ hname)⟩

theorem isPlain_of_isCore {r : Registry} {known : String → Bool} {name : String} {t : Ty}
    (hcore : (Expr.object name).isCore r known = true) (hknown : known name = false)
    (hbuilds : r.data.Builds name [] t) : r.data.isPlain name = true := by
  obtain ⟨d, written, hvariant⟩ := hbuilds.variant_of_nil
  rcases Expr.isOpen_or_of_isCore hcore hknown with hopen | ⟨d', written', hvariant', howner⟩
  · simp [Registry.isOpen, hvariant] at hopen
  · simp [DataTypes.isPlain, hvariant', howner]

mutual

/-- An expression of first order that has a type has it by the rules that evaluation keeps. -/
theorem typed_of_hasType {e : Expr} {Γ L : Naming} {bound : List String} {t : Ty}
    (h : HasType S.registry D Γ e t) (hextends : Γ.Extends L)
    (hbound : ∀ name, (L name).isSome = true ↔ name ∈ bound)
    (hcore : e.isCore S.registry (fun name => (Γ name).isSome) = true)
    (horder : e.isFirstOrder S.registry callable bound = true)
    (hsized : ∀ name n, callable name n = true → S.sized name n)
    (hserves : ∀ name ∈ e.freeOccurrences bound, S.Serves D Γ name) : Typed S L e t := by
  cases e with
  | blank => cases hcore
  | const value =>
      cases h
      exact .const
  | object name =>
      have hname : L name = none → S.Serves D Γ name := fun hL => by
        have hmem : name ∉ bound := fun hmem => by
          have hsome := (hbound name).2 hmem
          rw [hL] at hsome
          cases hsome
        exact hserves name (by simp [Expr.freeOccurrences, hmem])
      cases h with
      | bound hscheme hinstance =>
          cases hL : L name with
          | some u =>
              cases hscheme.symm.trans (hextends name u hL)
              exact .bound hL hinstance
          | none =>
              obtain ⟨scheme', hscheme', hmore⟩ := (hname hL).defined _ hscheme
              exact .defined hL hscheme' (hmore t hinstance)
      | constructor hnone hbuilds =>
          exact .constant (hextends.eq_none hnone)
            (isPlain_of_isCore hcore (by simp [hnone]) hbuilds) hbuilds
      | free hnone hopen hD =>
          have hL := hextends.eq_none hnone
          obtain ⟨hscheme, hsame⟩ := (hname hL).free hnone hopen
          exact .free hL hscheme hopen (hsame.trans hD)
  | operation name args =>
      rw [Expr.isCore, Bool.and_eq_true] at hcore
      rw [Expr.isFirstOrder, Bool.and_eq_true] at horder
      obtain ⟨hhead, hargsServed⟩ := List.forall_mem_append.1 hserves
      cases h with
      | construction hargs hbuilds =>
          have hplain := hcore.1
          rw [if_pos (Option.isSome_iff_ne_none.2 hbuilds.ne_none)] at hplain
          exact .construction (typedList_of_hasTypes hargs hextends hbound hcore.2 horder.2 hsized
            hargsServed) hplain hbuilds
      | call hvariant hname hargs hinstance =>
          obtain ⟨hnew, hcallable⟩ : name ∉ bound ∧ callable name args.length = true := by
            simpa [hvariant] using horder.1
          have hL : L name = none := by
            by_contra hne
            exact hnew ((hbound name).1 (Option.isSome_iff_ne_none.2 hne))
          obtain ⟨scheme', hscheme, hmore⟩ := (hhead name (by simp [hnew])).defined _ hname
          exact .call hscheme (hsized _ _ hcallable) (typedList_of_hasTypes hargs hextends hbound
            hcore.2 horder.2 hsized hargsServed) (hmore _ hinstance)
  | matching scrutinee cases =>
      rw [Expr.isCore, Bool.and_eq_true] at hcore
      rw [Expr.isFirstOrder, Bool.and_eq_true] at horder
      obtain ⟨hfirst, hrest⟩ := List.forall_mem_append.1 hserves
      cases h with
      | matching hscrutinee _ hcases =>
          exact .matching
            (typed_of_hasType hscrutinee hextends hbound hcore.1 horder.1 hsized hfirst)
            (typedCases_of_hasCases hcases hextends hbound hcore.2 horder.2 hsized hrest)

theorem typedList_of_hasTypes {es : List Expr} {Γ L : Naming} {bound : List String} {ts : List Ty}
    (h : HasTypes S.registry D Γ es ts) (hextends : Γ.Extends L)
    (hbound : ∀ name, (L name).isSome = true ↔ name ∈ bound)
    (hcore : Expr.isCoreList S.registry (fun name => (Γ name).isSome) es = true)
    (horder : Expr.isFirstOrderList S.registry callable bound es = true)
    (hsized : ∀ name n, callable name n = true → S.sized name n)
    (hserves : ∀ name ∈ Expr.freeOccurrencesList bound es, S.Serves D Γ name) :
    TypedList S L es ts := by
  match es with
  | [] =>
      cases h
      exact .nil
  | e :: es =>
      rw [Expr.isCoreList, Bool.and_eq_true] at hcore
      rw [Expr.isFirstOrderList, Bool.and_eq_true] at horder
      obtain ⟨hfirst, hrest⟩ := List.forall_mem_append.1 hserves
      cases h with
      | cons he hes =>
          exact .cons (typed_of_hasType he hextends hbound hcore.1 horder.1 hsized hfirst)
            (typedList_of_hasTypes hes hextends hbound hcore.2 horder.2 hsized hrest)

theorem typedCases_of_hasCases {cases : List (Pattern × Expr)} {Γ L : Naming}
    {bound : List String} {s t : Ty}
    (h : HasCases S.registry D Γ s cases t) (hextends : Γ.Extends L)
    (hbound : ∀ name, (L name).isSome = true ↔ name ∈ bound)
    (hcore : Expr.isCoreCases S.registry (fun name => (Γ name).isSome) cases = true)
    (horder : Expr.isFirstOrderCases S.registry callable bound cases = true)
    (hsized : ∀ name n, callable name n = true → S.sized name n)
    (hserves : ∀ name ∈ Expr.freeOccurrencesCases bound cases, S.Serves D Γ name) :
    TypedCases S L s cases t := by
  match cases with
  | [] =>
      cases h
      exact .nil
  | (p, body) :: rest =>
      rw [Expr.isCoreCases, Bool.and_eq_true] at hcore
      rw [Expr.isFirstOrderCases, Bool.and_eq_true] at horder
      obtain ⟨hfirst, hrest⟩ := List.forall_mem_append.1 hserves
      cases h with
      | @cons _ B _ _ _ _ _ hp hbody hcases =>
          have hvars : ∀ name, (B name).isSome = true ↔ name ∈ p.vars := fun name => by
            simpa [Naming.empty] using hp.isSome_iff name
          have hknown : (fun name => p.vars.contains name || (Γ name).isSome) =
              fun name => ((Γ.over B) name).isSome := by
            funext name
            rw [Naming.over, Option.isSome_or, Bool.eq_iff_iff]
            simp [hvars]
          refine .cons hp (typed_of_hasType hbody (hextends.over B)
            (fun name => (?_ : _ ↔ name ∈ p.vars ++ bound)) (hknown ▸ hcore.1) horder.1 hsized
            fun name hname => (hfirst name hname).over ?_)
            (typedCases_of_hasCases hcases hextends hbound hcore.2 horder.2 hsized hrest)
          · rw [Naming.over, Option.isSome_or, Bool.or_eq_true, hvars, hbound, List.mem_append]
          · rw [hp.eq_none_iff]
            exact Expr.notMem_of_mem_freeOccurrences hname

end

end Setting

namespace Ty

theorem arity?_bind_of_vars {ρ : Valuation} {t : Ty} (ht : t.isMono = true)
    (hρ : ∀ x ∈ t.freeOccurrences, ∃ y, ρ x = .var y) :
    Inference.arity? (t.bind ρ) = Inference.arity? t := by
  have hlength : ∀ {t : Ty}, t.isMono = true → (∀ x ∈ t.freeOccurrences, ∃ y, ρ x = .var y) →
      (t.bind ρ).uncurry.1.length = t.uncurry.1.length := by
    intro t ht hρ
    induction t using uncurry.induct with
    | case1 a b ih =>
        rw [isMono, Bool.and_eq_true] at ht
        have hb := ih ht.2 fun x hx => hρ x (List.mem_append_right _ hx)
        simp only [bind, uncurry, List.length_cons, hb]
    | case2 t hfn =>
        cases t with
        | fn a b => exact absurd rfl (hfn a b)
        | var x =>
            obtain ⟨y, hy⟩ := hρ x (List.mem_singleton_self x)
            rw [bind, hy]
            rfl
        | poly | blank | prim | nat | tag | data => rfl
  cases t with
  | var x =>
      obtain ⟨y, hy⟩ := hρ x (List.mem_singleton_self x)
      rw [bind, hy]
      rfl
  | fn a b => exact congrArg some (hlength ht hρ)
  | poly | blank | prim | nat | tag | data => rfl

end Ty

namespace Inference

theorem apply_of_instantiate {t fn : Ty} {s s' : State} (h : (instantiate t).Returns s fn s')
    (hs : s.Sound) (hu : s'.supply.Unwrapped) (ht : t.isClosedScheme = true) :
    s'.subst.apply fn = fn ∧ arity? fn = arity? t.unquantify.2 := by
  obtain ⟨supply, hrun, rfl⟩ := returns_fresh h
  rw [Attempt.Returns, Attempt.outcome_liftState, Prod.mk.injEq, Except.ok.injEq] at hrun
  obtain ⟨rfl, rfl⟩ := hrun
  obtain ⟨ρ, hρ, hvalue⟩ := t.instantiate_freshens s.supply hu
  have hmono : t.unquantify.2.isMono = true := by
    simp only [Ty.isClosedScheme, Bool.and_eq_true] at ht
    exact ht.1
  have hvars : ∀ x ∈ t.unquantify.2.freeOccurrences, ∃ y, ρ x = .var y ∧ s.supply.next ≤ y :=
    fun x hx => by
      obtain ⟨y, hy, hle, -⟩ := hρ.fresh x (Ty.mem_unquantify_of_isClosedScheme ht hx)
      exact ⟨y, hy, hle⟩
  rw [hvalue]
  refine ⟨?_, Ty.arity?_bind_of_vars hmono fun x hx => (hvars x hx).imp fun _ => And.left⟩
  rw [Subst.apply_eq_bind, Ty.bind_bind _ _ hmono]
  refine Ty.bind_congr fun x hx => ?_
  obtain ⟨y, hy, hle⟩ := hvars x hx
  rw [hy, Ty.bind]
  refine Subst.image_of_get?_eq_none (Option.eq_none_iff_forall_ne_some.2 fun u hget => ?_)
  have hlt := (hs.subst.2 y u hget).1
  omega

theorem takes_of_inferApplication {c : Context} {e : Expr} {name : String} {t u : Ty}
    {args : List Ty} {s s' : State} (h : (inferApplication c e name t args).Returns s u s')
    (hs : s.Sound) (hu : s'.supply.Unwrapped) (ht : t.isClosedScheme = true) :
    t.takes args.length = true := by
  unfold inferApplication at h
  obtain ⟨fn, s₁, hinstance, h⟩ := Attempt.returns_bind_iff.1 h
  obtain ⟨fn', s₂, hknown, h⟩ := Attempt.returns_bind_iff.1 h
  cases hknown
  have hrest : Keeps inferWatch ⊥ (do
      let result ← freshVar
      unifyFor c (.function name) e fn (Ty.curry args result)
      known result) fun _ => ⊤ :=
    freshVar_keeps.bind fun result => (unifyFor_keeps c _ e fn _).followedBy (fun _ h => h.1.elim)
      fun _ => (known_keeps result).weaken (fun _ h => h.1.1.elim) fun _ _ _ => trivial
  obtain ⟨hlength, h⟩ : (∀ n, arity? (s₁.subst.apply fn) = some n → n = args.length) ∧
      Attempt.Returns (do
        let result ← freshVar
        unifyFor c (.function name) e fn (Ty.curry args result)
        known result) s₁ u s' := by
    cases hn : arity? (s₁.subst.apply fn) with
    | none =>
        rw [hn] at h
        exact ⟨nofun, h⟩
    | some n =>
        rw [hn] at h
        by_cases hlength : n = args.length
        · simp only [ne_eq, hlength, not_true_eq_false, if_false] at h
          exact ⟨fun m hm => Option.some.inj hm ▸ hlength, h⟩
        · simp only [ne_eq, hlength, not_false_eq_true, if_true] at h
          obtain ⟨_, _, hfail, -⟩ := Attempt.returns_bind_iff.1 h
          cases hfail
  obtain ⟨hsame, harity⟩ := apply_of_instantiate hinstance hs (hrest.unwrapped_of_returns h hu) ht
  rw [hsame, harity] at hlength
  unfold Ty.takes
  cases hn : arity? t.unquantify.2 with
  | none => rfl
  | some n => simpa using hlength n hn

/-- The numbers of arguments that the types of an environment take. -/
def takes (env : TypeEnv) (name : String) (n : Nat) : Bool := (env.get? name).any (·.takes n)

theorem agree_keeps (c : Context) (body : Expr) (result : Option Ty) (t : Ty) :
    Keeps inferWatch (Every Ty.inScope result.toList ⊓ t.inScope) (agree c body result t)
      fun _ => ⊤ := by
  cases result with
  | none => exact Keeps.pure fun _ _ => trivial
  | some result =>
      exact (blaming_keeps (unify_keeps c result t)).of_pre fun n h => ⟨h.1 result (by simp), h.2⟩

theorem length_of_inferList {c : Context} {env : TypeEnv} {es : List Expr} {ts : List Ty}
    {s s' : State} (h : (inferList c env es).Returns s ts s') : ts.length = es.length := by
  induction es generalizing s ts with
  | nil =>
      cases h
      rfl
  | cons e es ih =>
      obtain ⟨t, s₁, -, h⟩ := Attempt.returns_bind_iff.1 h
      obtain ⟨us, s₂, hrest, h⟩ := Attempt.returns_bind_iff.1 h
      cases h
      exact congrArg (· + 1) (ih hrest)

variable {c : Context} {globals : TypeEnv}

mutual

theorem isFirstOrder_of_infer (hclosed : ∀ name t, globals.get? name = some t →
      t.isClosedScheme = true) {env : TypeEnv} {e : Expr} {bound : List String} {t : Ty} {s s' : State}
    (h : (infer c env e).Returns s t s') (hu : s'.supply.Unwrapped) (hs : s.Sound)
    (hready : ready c env s.supply.next) (hwhole : e.isWhole = true)
    (hcore : e.isCore c.registry (knows env) = true)
    (henv : ∀ name, name ∉ bound → env.get? name = globals.get? name)
    (horder : e.isFirstOrder c.registry (fun _ _ => true) bound = true) :
    e.isFirstOrder c.registry (takes globals) bound = true := by
  cases e with
  | blank | const | object => rfl
  | operation name args =>
      rw [infer] at h
      rw [Expr.isFirstOrder, Bool.and_eq_true] at horder ⊢
      rw [Expr.isCore, Bool.and_eq_true] at hcore
      obtain ⟨types, s₁, hargs, hcall⟩ := Attempt.returns_bind_iff.1 h
      have hu₁ := (inferCall_keeps c env name args types).unwrapped_of_returns hcall hu
      obtain ⟨hs₁, -, -⟩ := (inferList_keeps c env args).of_returns hargs hu₁ hs ⟨hready, hwhole⟩
      refine ⟨?_, isFirstOrderList_of_inferList hclosed hargs hu₁ hs hready hwhole hcore.2 henv
        horder.2⟩
      cases hvariant : c.registry.data.variant? name with
      | some _ => rfl
      | none =>
          have hnew : name ∉ bound := by simpa [hvariant] using horder.1
          obtain ⟨t', ht'⟩ : ∃ t', env.get? name = some t' :=
            Option.isSome_iff_exists.1 (by simpa [hvariant, knows] using hcore.1)
          have hvariant' : c.data.variant? name = none := hvariant
          simp only [inferCall, hvariant', ht', Option.isSome_none, Bool.false_eq_true, if_false]
            at hcall
          have hglobal : globals.get? name = some t' := henv name hnew ▸ ht'
          have htakes := takes_of_inferApplication hcall hs₁ hu (hclosed name t' hglobal)
          rw [length_of_inferList hargs] at htakes
          simp [takes, hnew, hglobal, htakes]
  | matching scrutinee cases =>
      rw [infer] at h
      rw [Expr.isFirstOrder, Bool.and_eq_true] at horder ⊢
      rw [Expr.isCore, Bool.and_eq_true] at hcore
      rw [Expr.isWhole, Bool.and_eq_true] at hwhole
      split at h
      · obtain ⟨_, _, hfail, -⟩ := Attempt.returns_bind_iff.1 h
        cases hfail
      · obtain ⟨t₁, s₁, hscrutinee, h⟩ := Attempt.returns_bind_iff.1 h
        obtain ⟨result, s₂, hcases, h⟩ := Attempt.returns_bind_iff.1 h
        have hrest : Keeps inferWatch ⊥ (do
            reviewCases c (.matching scrutinee cases) (← known t₁) (cases.map (·.1))
            known (result.getD .blank)) fun _ => ⊤ :=
          ((known_keeps t₁).of_pre fun _ (h : False) => h.elim).bind fun t₂ =>
            (reviewCases_keeps c _ t₂ _).bind fun _ =>
              (known_keeps _).weaken (fun _ h => h.1.1.elim) fun _ _ _ => trivial
        have hu₂ := hrest.unwrapped_of_returns h hu
        have hu₁ := (inferCases_keeps c env _ t₁ none cases).unwrapped_of_returns hcases hu₂
        obtain ⟨hs₁, ht₁, hle⟩ := (infer_keeps c env scrutinee).of_returns hscrutinee hu₁ hs
          ⟨hready, hwhole.1⟩
        exact ⟨isFirstOrder_of_infer hclosed hscrutinee hu₁ hs hready hwhole.1 hcore.1 henv horder.1,
          isFirstOrderCases_of_inferCases hclosed hcases hu₂ hs₁ ((ready c env).mono hle hready)
            hwhole.2 ht₁ (every_nil _ _) hcore.2 henv horder.2⟩

theorem isFirstOrderList_of_inferList (hclosed : ∀ name t, globals.get? name = some t →
      t.isClosedScheme = true) {env : TypeEnv} {es : List Expr} {bound : List String} {ts : List Ty}
    {s s' : State} (h : (inferList c env es).Returns s ts s') (hu : s'.supply.Unwrapped)
    (hs : s.Sound) (hready : ready c env s.supply.next) (hwhole : Expr.isWholeList es = true)
    (hcore : Expr.isCoreList c.registry (knows env) es = true)
    (henv : ∀ name, name ∉ bound → env.get? name = globals.get? name)
    (horder : Expr.isFirstOrderList c.registry (fun _ _ => true) bound es = true) :
    Expr.isFirstOrderList c.registry (takes globals) bound es = true := by
  match es with
  | [] => rfl
  | e :: es =>
      rw [inferList] at h
      rw [Expr.isFirstOrderList, Bool.and_eq_true] at horder ⊢
      rw [Expr.isCoreList, Bool.and_eq_true] at hcore
      rw [Expr.isWholeList, Bool.and_eq_true] at hwhole
      obtain ⟨t, s₁, hfirst, h⟩ := Attempt.returns_bind_iff.1 h
      obtain ⟨us, s₂, hrest, h⟩ := Attempt.returns_bind_iff.1 h
      cases h
      have hu₁ := (inferList_keeps c env es).unwrapped_of_returns hrest hu
      obtain ⟨hs₁, -, hle⟩ := (infer_keeps c env e).of_returns hfirst hu₁ hs ⟨hready, hwhole.1⟩
      exact ⟨isFirstOrder_of_infer hclosed hfirst hu₁ hs hready hwhole.1 hcore.1 henv horder.1,
        isFirstOrderList_of_inferList hclosed hrest hu hs₁ ((ready c env).mono hle hready) hwhole.2
          hcore.2 henv horder.2⟩

theorem isFirstOrderCases_of_inferCases (hclosed : ∀ name t, globals.get? name = some t →
      t.isClosedScheme = true) {env : TypeEnv} {e : Expr} {scrutinee : Ty} {result result' : Option Ty}
    {cases : List (Pattern × Expr)} {bound : List String} {s s' : State}
    (h : (inferCases c env e scrutinee result cases).Returns s result' s') (hu : s'.supply.Unwrapped)
    (hs : s.Sound) (hready : ready c env s.supply.next) (hwhole : Expr.isWholeCases cases = true)
    (hscrutinee : scrutinee.inScope s.supply.next)
    (hresult : Every Ty.inScope result.toList s.supply.next)
    (hcore : Expr.isCoreCases c.registry (knows env) cases = true)
    (henv : ∀ name, name ∉ bound → env.get? name = globals.get? name)
    (horder : Expr.isFirstOrderCases c.registry (fun _ _ => true) bound cases = true) :
    Expr.isFirstOrderCases c.registry (takes globals) bound cases = true := by
  match cases with
  | [] => rfl
  | (p, body) :: rest =>
      rw [inferCases_cons] at h
      rw [Expr.isFirstOrderCases, Bool.and_eq_true] at horder ⊢
      rw [Expr.isCoreCases, Bool.and_eq_true] at hcore
      rw [Expr.isWholeCases, Bool.and_eq_true] at hwhole
      obtain ⟨bindings, s₁, hpattern, h⟩ := Attempt.returns_bind_iff.1 h
      obtain ⟨t, s₂, hbody, h⟩ := Attempt.returns_bind_iff.1 h
      obtain ⟨_, s₃, hagree, hrest⟩ := Attempt.returns_bind_iff.1 h
      have hu₃ := (inferCases_keeps c env e scrutinee (some (result.getD t)) rest).unwrapped_of_returns
        hrest hu
      have hu₂ := (agree_keeps c body result t).unwrapped_of_returns hagree hu₃
      have hu₁ := (infer_keeps c (env.extend bindings.entries) body).unwrapped_of_returns hbody hu₂
      obtain ⟨hs₁, ⟨hbindings, hvars⟩, hle₁⟩ := (bindPattern_finds c e p scrutinee).of_returns hpattern
        hu₁ hs ⟨Registry.isWhole_data hready.1, hscrutinee⟩
      have hready₁ : ready c (env.extend bindings.entries) s₁.supply.next :=
        ⟨hready.1, TypeEnv.inScope_extend ((TypeEnv.inScope env).mono hle₁ hready.2) fun b hb =>
          Ty.schemeBelow_of_inScope (hbindings b hb)⟩
      obtain ⟨hs₂, ht, hle₂⟩ := (infer_keeps c (env.extend bindings.entries) body).of_returns hbody hu₂
        hs₁ ⟨hready₁, hwhole.1⟩
      have hresult₂ := (Every Ty.inScope result.toList).mono (hle₁.trans hle₂) hresult
      obtain ⟨hs₃, -, hle₃⟩ := (agree_keeps c body result t).of_returns hagree hu₃ hs₂ ⟨hresult₂, ht⟩
      have hle := (hle₁.trans hle₂).trans hle₃
      refine ⟨isFirstOrder_of_infer hclosed hbody hu₂ hs₁ hready₁ hwhole.1
        (knows_extend hvars ▸ hcore.1) (fun name hname => ?_) horder.1,
        isFirstOrderCases_of_inferCases hclosed hrest hu hs₃ ((ready c env).mono hle hready) hwhole.2
          (scrutinee.inScope.mono hle hscrutinee) (fun u hu => ?_) hcore.2 henv horder.2⟩
      · obtain ⟨hvar, hbound⟩ := not_or.1 (List.mem_append.not.1 hname)
        have hnone : bindings.get? name = none := by
          by_contra hne
          exact hvar ((hvars name).1 (Option.isSome_iff_ne_none.2 hne))
        rw [TypeEnv.get?_extend, hnone, Option.none_or, henv name hbound]
      · cases result with
        | none =>
            obtain rfl : u = t := by simpa using hu
            exact u.inScope.mono hle₃ ht
        | some result => exact u.inScope.mono hle₃ (hresult₂ u hu)

end

end Inference

end Formulary
