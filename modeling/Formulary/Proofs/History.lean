import Formulary.Proofs.Schemes

namespace Formulary

/-- Moves every number of sixty-four bits on, in a circle. Other numbers stay. -/
def turn (k x : Int) : Int := if -2 ^ 63 ≤ x ∧ x < 2 ^ 63 then (x + k).bmod 0x10000000000000000 else x

theorem bmod_range (x : Int) : -2 ^ 63 ≤ x.bmod 0x10000000000000000 ∧ x.bmod 0x10000000000000000 < 2 ^ 63 := by
  have hlower := Int.le_bmod (x := x) (m := 0x10000000000000000) (by decide)
  have hupper := Int.bmod_lt (x := x) (m := 0x10000000000000000) (by decide)
  omega

theorem turn_bmod (k x : Int) : turn k (x.bmod 0x10000000000000000) = (x + k).bmod 0x10000000000000000 := by
  rw [turn, if_pos (bmod_range x), Int.bmod_add_bmod]

theorem turn_neg_turn (k x : Int) : turn (-k) (turn k x) = x := by
  by_cases hx : -2 ^ 63 ≤ x ∧ x < 2 ^ 63
  · have hturn : turn k x = (x + k).bmod 0x10000000000000000 := if_pos hx
    rw [hturn, turn_bmod, Int.add_neg_cancel_right]
    exact Int.bmod_eq_of_le (by omega) (by omega)
  · have hturn : turn k x = x := if_neg hx
    rw [hturn]
    exact if_neg hx

def turning (k : Int) : Equiv.Perm Int where
  toFun := turn k
  invFun := turn (-k)
  left_inv := turn_neg_turn k
  right_inv x := by simpa using turn_neg_turn (-k) x

/-- Any two sources of variables hand them out in step, but for a turn. -/
theorem exists_showsSupply (allowed : String → String → Prop) (u u' : Supply) :
    ∃ ids ahead, (⟨ids, allowed, ahead⟩ : Mirror).ShowsSupply u u' := by
  refine ⟨turning (u'.first + u'.drawn - (u.first + u.drawn)), u'.drawn - u.drawn, fun n => ?_,
    (Int.add_sub_cancel _ _).symm.trans (by ring)⟩
  show Supply.next _ = turn _ (Supply.next _)
  unfold Supply.next
  rw [turn_bmod]
  congr 1
  push_cast
  ring

namespace Checker

/-- What a checker is asked about an expression. -/
inductive Query where
  | check (e : Expr)
  | evaluate (e : Expr)

def Query.ask : Query → Run Unit
  | .check e => do let _ ← Checker.check e
  | .evaluate e => do let _ ← Checker.evaluate e

/-- The checker behind some queries, asked one after the other. -/
def asked (c : Checker) : List Query → Checker
  | [] => c
  | q :: rest => asked (q.ask.outcome c).2 rest

theorem exists_inference_check (c : Checker) (e : Expr) :
    ∃ inference, ((check e).outcome c).2 = { c with inference } := by
  cases h : (Inference.inferExpr c.context c.env e).outcome c.inference with
  | mk r s =>
      cases r with
      | ok t => exact ⟨s, by rw [outcome_check_of_ok h]⟩
      | error f => exact ⟨s, by rw [outcome_check_of_error h]⟩

theorem exists_inference_ask (c : Checker) (q : Query) :
    ∃ inference, (q.ask.outcome c).2 = { c with inference } := by
  cases q with
  | check e =>
      obtain ⟨s, hs⟩ := exists_inference_check c e
      refine ⟨s, ?_⟩
      rw [Query.ask, Attempt.outcome_bind]
      cases h : (check e).outcome c with
      | mk r c' =>
          rw [h] at hs
          cases r with
          | ok v => exact hs
          | error err => exact hs
  | evaluate e =>
      obtain ⟨s, hs⟩ := exists_inference_check c e
      refine ⟨s, ?_⟩
      rw [Query.ask, Attempt.outcome_bind, evaluate, Attempt.outcome_bind]
      cases h : (check e).outcome c with
      | mk r c' =>
          rw [h] at hs
          cases r with
          | error err => exact hs
          | ok v =>
              dsimp only
              rw [Attempt.outcome_bind, Attempt.outcome_get]
              dsimp only
              cases Evaluation.eval c'.definitions c'.options.depth e with
              | ok value => exact hs
              | error f => exact hs

theorem exists_inference_asked (c : Checker) (qs : List Query) :
    ∃ inference, c.asked qs = { c with inference } := by
  induction qs generalizing c with
  | nil => exact ⟨c.inference, rfl⟩
  | cons q qs ih =>
      obtain ⟨s, hs⟩ := exists_inference_ask c q
      obtain ⟨s', hs'⟩ := ih (q.ask.outcome c).2
      refine ⟨s', ?_⟩
      rw [asked, hs', hs]

end Checker

/-- The kind of an error, unless it is that a text cannot be read. -/
def Error.kind? (e : Error) : Option FaultKind := e.cause.elim (fun _ => none) fun f => some f.kind

namespace Checker

/-- What is told of a check: the type as it is printed, with the kind, the text and the missing
constructors of each warning, or the kind of error. -/
def told (r : Except Error Verdict) :
    Except (Option FaultKind) (String × List (FaultKind × String × List String)) :=
  (r.map fun v => (v.type.render, v.warnings.map Fault.shown)).mapError Error.kind?

theorem check_ok_of_agrees {M : Mirror} {c c' : Checker} {e : Expr}
    (h : (Inference.likeness M c.context c'.context).Agrees M.ShowsTy
      ((Inference.inferExpr c.context c.env e).outcome c.inference)
      ((Inference.inferExpr c'.context c'.env e).outcome c'.inference))
    {v : Verdict} (hv : ((check e).outcome c).1 = .ok v) :
    ∃ v', ((check e).outcome c').1 = .ok v' ∧ v'.type.render = v.type.render ∧
      v'.warnings.map Fault.shown = v.warnings.map Fault.shown := by
  revert h
  cases hrun : (Inference.inferExpr c.context c.env e).outcome c.inference with
  | mk r s =>
      cases hrun' : (Inference.inferExpr c'.context c'.env e).outcome c'.inference with
      | mk r' s' =>
          cases r with
          | error f =>
              rw [outcome_check_of_error hrun] at hv
              cases hv
          | ok t =>
              rw [outcome_check_of_ok hrun] at hv
              cases hv
              cases r' with
              | error f' => exact False.elim
              | ok t' =>
                  rintro ⟨ht, hs⟩
                  refine ⟨⟨t', s'.warnings⟩, by rw [outcome_check_of_ok hrun'], ?_, hs.warnings⟩
                  rw [ht.1, Ty.render_rename]

theorem told_eq_of_agrees {M : Mirror} {c c' : Checker} {e : Expr}
    (hsame : c'.context.registry = c.context.registry)
    (h : (Inference.likeness M c.context c'.context).Agrees M.ShowsTy
      ((Inference.inferExpr c.context c.env e).outcome c.inference)
      ((Inference.inferExpr c'.context c'.env e).outcome c'.inference)) :
    told ((check e).outcome c').1 = told ((check e).outcome c).1 := by
  cases hrun : (Inference.inferExpr c.context c.env e).outcome c.inference with
  | mk r s =>
      cases r with
      | ok t =>
          have hok : ((check e).outcome c).1 = .ok ⟨t, s.warnings⟩ := by
            rw [outcome_check_of_ok hrun]
          obtain ⟨v', hok', htype, hwarnings⟩ := check_ok_of_agrees h hok
          rw [hok, hok']
          show Except.ok (v'.type.render, _) = Except.ok (t.render, _)
          rw [htype, hwarnings]
      | error f =>
          rw [hrun] at h
          cases hrun' : (Inference.inferExpr c'.context c'.env e).outcome c'.inference with
          | mk r' s' =>
              rw [hrun'] at h
              cases r' with
              | ok t' => exact absurd hsame h
              | error f' =>
                  rw [outcome_check_of_error hrun, outcome_check_of_error hrun']
                  show Except.error (some f'.kind) = Except.error (some f.kind)
                  rw [(h hsame).1.kind]

/-- Inference behind a session can be run with any other source of variables. -/
theorem Reachable.exists_mirror {c : Checker} (hc : c.Reachable) (u u' : Supply) :
    ∃ M : Mirror, M.ShowsSupply u u' ∧ c.context.Agrees M c.context ∧
      ∀ name, Inference.SameName M c.context c.context c.env c.env name := by
  obtain ⟨ids, ahead, hsupply⟩ := exists_showsSupply c.registry.data.Provides u u'
  have henv : Inference.ShowsEnv ⟨ids, c.registry.data.Provides, ahead⟩ c.env c.env :=
    Inference.showsEnv_of_isOver hc.schematic
  exact ⟨_, hsupply, ⟨Registry.agrees_provides ids ahead c.registry, rfl, rfl, rfl, rfl⟩,
    fun name => ⟨henv name, rfl, rfl⟩⟩

/-- Whatever has been checked and evaluated before, with success or without: a check tells the same
as it does without it. -/
theorem told_check_asked {c : Checker} (hc : c.Reachable) (qs : List Query) (e : Expr) :
    told ((check e).outcome (c.asked qs)).1 = told ((check e).outcome c).1 := by
  obtain ⟨s', hasked⟩ := exists_inference_asked c qs
  rw [hasked]
  by_cases hblank : e = .blank
  · subst hblank
    rw [outcome_check_of_error (c := c) rfl,
      outcome_check_of_error (c := { c with inference := s' }) rfl]
  · obtain ⟨M, hsupply, hagree, hnames⟩ := hc.exists_mirror c.inference.supply s'.supply
    exact told_eq_of_agrees rfl (Inference.inferExpr_agrees hagree hblank
      (fun name _ => hnames name) hsupply)

theorem told_check_asked_twice :
    let c := create ⟨false, false, 0, true, false⟩
    let qs := [Query.check (.object "x"), .evaluate (.operation "f" [.object "x"])]
    let e := Expr.matching (.object "y") [(.var "z", .object "z")]
    (c.asked qs).inference.supply.drawn = 2 ∧
      told ((check e).outcome c).1 = .ok ("'a", []) ∧
      told ((check e).outcome (c.asked qs)).1 = .ok ("'a", []) := by
  intro c qs e
  have htold : told ((check (.matching (.object "y") [(.var "z", .object "z")])).outcome
      (create ⟨false, false, 0, true, false⟩)).1 = .ok ("'a", []) := by
    cbv
  have hreachable : c.Reachable := ⟨⟨false, false, 0, true, false⟩, [], rfl⟩
  exact ⟨by cbv, htold, (told_check_asked hreachable qs e).trans htold⟩

end Checker

end Formulary
