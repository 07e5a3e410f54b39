import Formulary.Proofs.Registering

namespace Formulary

theorem Registry.find?_of_registerAll {r r' : Registry} {decls : List Declaration}
    (h : r.registerAll decls = .ok r') (hr : r.data.find? "" = none) :
    r'.data.find? "" = none := by
  refine registerAll_keeps (P := (·.data.find? "" = none)) h hr fun d _ r₁ r₂ hnone hregister => ?_
  have hgains := register_gains r₁ d
  rw [hregister] at hgains
  rw [DataTypes.find?_of_append hgains.types, hnone, Option.none_or]
  cases d with
  | data d =>
      obtain ⟨data, hdata, -⟩ := Except.bind_eq_ok_iff.1 hregister
      have hnamed := (DataTypes.register_eq_ok_iff.1 hdata).1.named
      simp [DataTypes.find?, dataTypesOf, Declaration.dataType?, hnamed]
  | interface | implementation | definition => rfl

namespace Inference

/-- Every check of a name that nothing declares gives it a variable of its own. -/
theorem outcome_inferExpr_unknown {c : Context} {env : TypeEnv} {name : String}
    (henv : env.get? name = none) (hvariant : c.data.variant? name = none)
    (hoperation : c.registry.operation? name = none) (htrace : c.trace = false) (s : State) :
    ∃ t s', (inferExpr c env (.object name)).outcome s = (.ok t, s') ∧
      s'.supply = { s.supply.resetCount with drawn := s.supply.drawn + 1 } := by
  have hname : inferName c env name = freeName name := by
    rw [inferName, henv, hvariant, hoperation]
  have hinfer : infer c env (.object name) = freeName name := by rw [infer, hname]
  have hexpr : inferExpr c env (.object name) = (do
      modify State.reset
      let t ← freeName name
      blaming (.object name) requireIdempotent
      let t ← known t
      return t) := by
    unfold inferExpr
    rw [hinfer, htrace]
    rfl
  rw [hexpr]
  exact ⟨_, _, rfl, rfl⟩

end Inference

namespace Checker

theorem Reachable.isClosed {c : Checker} (h : c.Reachable) : c.env.IsClosed := by
  obtain ⟨ds, -, hds⟩ := h.registerAll
  exact h.schematic.isClosed (Registry.find?_of_registerAll hds rfl)

/-- A substitution that changes nothing when it is applied again, puts monotypes, and speaks of
variables smaller than `n` only. -/
structure Orderly (n : Int) (s : Subst) : Prop where
  idempotent : s.isIdempotent = true
  mono : ∀ x t, s.get? x = some t → t.isMono = true
  vars : ∀ x t, s.get? x = some t → x < n ∧ ∀ y ∈ t.freeOccurrences, y < n

theorem orderly_of_proper {n : Int} {s : Subst} (h : Inference.Proper n s) : Orderly n s where
  idempotent := h.1.isIdempotent h.2.monoRange
  mono x t hx := (h.2 x t hx).2.1
  vars x t hx := ⟨(h.2 x t hx).1, (h.2 x t hx).2.2⟩

/-- However a checker is used: the types of its environment are closed schemes. As long as there are
numbers left, every substitution that inference has held was orderly when it was taken up and the
present one still is, and all variables in use have been handed out. Of internal errors none is told
until then but that evaluation went too deep. -/
theorem session_invariant (options : Options) (rs : List Request) :
    let c := (create options).after rs
    (∀ name t, c.env.get? name = some t → t.isClosedScheme = true) ∧
      (c.Unexhausted →
        (∀ name t, c.env.get? name = some t →
          ∀ x ∈ t.unquantify.1 ++ t.unquantify.2.freeOccurrences, x < c.inference.supply.next) ∧
        (∀ s n, (s, n) ∈ c.inference.held → Orderly n s) ∧
        Orderly c.inference.supply.next c.inference.subst ∧
        (∀ name x, (name, x) ∈ c.inference.free → x < c.inference.supply.next) ∧
        ∀ e ∈ (create options).errors rs, ∀ f, e.cause = .inr f → f.kind = .internalError →
          ∃ bound, f = .tooDeep bound) := by
  refine ⟨Reachable.isClosed ⟨options, rs, rfl⟩, fun h => ?_⟩
  have hs := unwrapped_of_le (le_after _ rs) h
  obtain ⟨hsound, htells⟩ := after_sound (create_sound options (hs.of_le (le_after _ rs))) hs
  refine ⟨fun name t ht x hx => ?_,
    fun s n hmem => orderly_of_proper (hsound.inference.held (s, n) hmem),
    orderly_of_proper hsound.inference.subst,
    fun name x hmem => hsound.inference.free (name, x) hmem, htells⟩
  rcases List.mem_append.1 hx with hx | hx
  · exact hsound.env.2 name t ht x hx
  · have hbound := Ty.mem_unquantify_of_isClosedScheme (hsound.env.1 name t ht) hx
    exact hsound.env.2 name t ht x hbound

/-- A session that defines a function, applies it to itself and evaluates a call. -/
def identitySession : {rs : List Request //
    ((create ⟨false, false, 0, true, false⟩).after rs).inference.supply.drawn = 7} :=
  ⟨[.load "identity" "define f(x) = x", .check "f(f)", .evaluate "f(2)"], by cbv⟩

theorem session_invariant_identity :
    let c := (create ⟨false, false, 0, true, false⟩).after
      [.load "identity" "define f(x) = x", .check "f(f)", .evaluate "f(2)"]
    c.inference.supply.drawn = 7 ∧ Orderly c.inference.supply.next c.inference.subst := by
  have hdrawn := identitySession.property
  refine ⟨hdrawn, ((session_invariant _ _).2 ?_).2.2.1⟩
  exact hdrawn.trans_lt (by decide)

theorem after_cons (c : Checker) (r : Request) (rs : List Request) :
    c.after (r :: rs) = (c.after [r]).after rs := rfl

/-- Checks of a name that nothing declares leave the environment as it is and draw one variable
each. -/
theorem after_replicate_check {source name : String}
    (hparse : Expr.parse source = .ok (.object name)) {c : Checker}
    (henv : c.env.get? name = none) (hvariant : c.registry.data.variant? name = none)
    (hoperation : c.registry.operation? name = none) (htrace : c.options.trace = false) (n : Nat) :
    ∃ s, c.after (List.replicate n (.check source)) = { c with inference := s } ∧
      s.supply.first = c.inference.supply.first ∧
      s.supply.drawn = c.inference.supply.drawn + n := by
  induction n generalizing c with
  | zero => exact ⟨c.inference, rfl, rfl, rfl⟩
  | succ n ih =>
      obtain ⟨t, s, hinfer, hsupply⟩ := Inference.outcome_inferExpr_unknown (c := c.context) henv
        hvariant hoperation htrace c.inference
      have hcheck : (checkSource source).outcome c =
          (.ok ⟨t, s.warnings⟩, { c with inference := s }) := by
        rw [checkSource, parseExpr, hparse]
        exact outcome_check_of_ok hinfer
      have hserve : ((Request.check source).serve.outcome c).2 = { c with inference := s } := by
        rw [Request.serve, Attempt.outcome_bind, hcheck]
        rfl
      obtain ⟨s', hafter, hfirst, hdrawn⟩ := ih (c := { c with inference := s }) henv hvariant
        hoperation htrace
      refine ⟨s', ?_, ?_, ?_⟩
      · rw [List.replicate_succ, after, hserve, hafter]
      · rw [hfirst, hsupply]
        rfl
      · rw [hdrawn, hsupply]
        dsimp only
        omega

/-- When the numbers have run over, the type of a definition speaks of a variable that is not
smaller than the next one. -/
theorem session_invariant_overrun :
    let c := (create ⟨false, false, 0, true, false⟩).after
      (.load "identity" "define f(x) = x" :: List.replicate (2 ^ 63) (.check "a"))
    c.env.get? "f" = some (.poly 1 (.fn (.var 1) (.var 1))) ∧ c.inference.supply.next < 0 := by
  intro c
  have hparse : Expr.parse "a" = .ok (.object "a") := by cbv
  have hloaded : ∃ loaded, loaded = (create ⟨false, false, 0, true, false⟩).after
      [.load "identity" "define f(x) = x"] ∧ loaded.options.trace = false ∧
      loaded.env.get? "f" = some (.poly 1 (.fn (.var 1) (.var 1))) ∧
      loaded.inference.supply.first = 0 ∧ loaded.inference.supply.drawn = 2 ∧
      loaded.env.get? "a" = none ∧ loaded.registry.data.variant? "a" = none ∧
      loaded.registry.operation? "a" = none := by
    refine ⟨_, rfl, ?_⟩
    cbv
    trivial
  obtain ⟨loaded, heq, htrace, hf, hfirst, hdrawn, ha, hvariant, hoperation⟩ := hloaded
  obtain ⟨s, hafter, hfirst', hdrawn'⟩ :=
    after_replicate_check hparse ha hvariant hoperation htrace (2 ^ 63)
  have hc : c = { loaded with inference := s } := by
    rw [← hafter, heq]
    exact after_cons _ _ _
  rw [hc]
  refine ⟨hf, ?_⟩
  rw [Supply.next, hfirst', hfirst, hdrawn', hdrawn]
  decide

end Checker

end Formulary
