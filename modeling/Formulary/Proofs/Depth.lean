import Formulary.Proofs.Evaluating

namespace Formulary.Evaluation

mutual

/-- What an expression comes to at some depth. It comes to that by a tree of finitely many rules. -/
inductive ComesTo (defs : List Definition) (bound : Nat) : Nat → Expr → Except Fault Expr → Prop
  | tooDeep {depth : Nat} {e : Expr} (hdepth : bound < depth) :
      ComesTo defs bound depth e (.error (.tooDeep bound))
  | blank {depth : Nat} (hdepth : depth ≤ bound) :
      ComesTo defs bound depth .blank (.error .emptyExpression)
  | const {depth : Nat} {value : String} (hdepth : depth ≤ bound) :
      ComesTo defs bound depth (.const value) (.ok (.const value))
  | object {depth : Nat} {name : String} (hdepth : depth ≤ bound)
      (hbody : expand? defs name [] = none) :
      ComesTo defs bound depth (.object name) (.ok (.object name))
  | expanded {depth : Nat} {name : String} {body : Expr} {r : Except Fault Expr}
      (hdepth : depth ≤ bound) (hbody : expand? defs name [] = some body)
      (hresult : ComesTo defs bound (depth + 1) body r) : ComesTo defs bound depth (.object name) r
  | argumentsFail {depth : Nat} {name : String} {args : List Expr} {f : Fault}
      (hdepth : depth ≤ bound) (hargs : ComeTo defs bound depth args (.error f)) :
      ComesTo defs bound depth (.operation name args) (.error f)
  | operation {depth : Nat} {name : String} {args values : List Expr} (hdepth : depth ≤ bound)
      (hargs : ComeTo defs bound depth args (.ok values))
      (hbody : expand? defs name values = none) :
      ComesTo defs bound depth (.operation name args) (.ok (.operation name values))
  | call {depth : Nat} {name : String} {args values : List Expr} {body : Expr}
      {r : Except Fault Expr} (hdepth : depth ≤ bound)
      (hargs : ComeTo defs bound depth args (.ok values))
      (hbody : expand? defs name values = some body)
      (hresult : ComesTo defs bound (depth + 1) body r) :
      ComesTo defs bound depth (.operation name args) r
  | scrutineeFails {depth : Nat} {scrutinee : Expr} {cases : List (Pattern × Expr)} {f : Fault}
      (hdepth : depth ≤ bound) (hscrutinee : ComesTo defs bound depth scrutinee (.error f)) :
      ComesTo defs bound depth (.matching scrutinee cases) (.error f)
  | unmatched {depth : Nat} {scrutinee value : Expr} {cases : List (Pattern × Expr)}
      (hdepth : depth ≤ bound) (hscrutinee : ComesTo defs bound depth scrutinee (.ok value))
      (hselect : value.select? cases = none) :
      ComesTo defs bound depth (.matching scrutinee cases) (.error (.noMatchingCase value))
  | selected {depth : Nat} {scrutinee value : Expr} {cases : List (Pattern × Expr)} {place : Nat}
      {bindings : Expr.Bindings} {body : Expr} {r : Except Fault Expr} (hdepth : depth ≤ bound)
      (hscrutinee : ComesTo defs bound depth scrutinee (.ok value))
      (hselect : value.select? cases = some (place, bindings, body))
      (hresult : ComesTo defs bound (depth + 1) (body.substitute bindings) r) :
      ComesTo defs bound depth (.matching scrutinee cases) r

/-- What expressions come to from left to right, up to the first that fails. -/
inductive ComeTo (defs : List Definition) (bound : Nat) :
    Nat → List Expr → Except Fault (List Expr) → Prop
  | nil {depth : Nat} : ComeTo defs bound depth [] (.ok [])
  | firstFails {depth : Nat} {e : Expr} {es : List Expr} {f : Fault}
      (hfirst : ComesTo defs bound depth e (.error f)) : ComeTo defs bound depth (e :: es) (.error f)
  | restFails {depth : Nat} {e value : Expr} {es : List Expr} {f : Fault}
      (hfirst : ComesTo defs bound depth e (.ok value))
      (hrest : ComeTo defs bound depth es (.error f)) : ComeTo defs bound depth (e :: es) (.error f)
  | cons {depth : Nat} {e value : Expr} {es values : List Expr}
      (hfirst : ComesTo defs bound depth e (.ok value))
      (hrest : ComeTo defs bound depth es (.ok values)) :
      ComeTo defs bound depth (e :: es) (.ok (value :: values))

end

section

variable {defs : List Definition} {bound depth : Nat} {deeper : Expr → Except Fault Expr}

mutual

theorem comesTo_evalWith (hdepth : depth ≤ bound)
    (hdeeper : ∀ e, ComesTo defs bound (depth + 1) e (deeper e)) (e : Expr) :
    ComesTo defs bound depth e (evalWith defs deeper e) := by
  cases e with
  | blank => exact .blank hdepth
  | const value => exact .const hdepth
  | object name =>
      rw [evalWith]
      split
      · rename_i body hbody
        exact .expanded hdepth hbody (hdeeper body)
      · rename_i hbody
        exact .object hdepth hbody
  | operation name args =>
      have hargs := comeTo_evalListWith hdepth hdeeper args
      rw [evalWith]
      cases hvalues : evalListWith defs deeper args with
      | error f => exact .argumentsFail hdepth (hvalues ▸ hargs)
      | ok values =>
          rw [hvalues] at hargs
          show ComesTo defs bound depth _ (match expand? defs name values with
            | some body => deeper body
            | none => .ok (.operation name values))
          split
          · rename_i body hbody
            exact .call hdepth hargs hbody (hdeeper body)
          · rename_i hbody
            exact .operation hdepth hargs hbody
  | matching scrutinee cases =>
      have hscrutinee := comesTo_evalWith hdepth hdeeper scrutinee
      rw [evalWith]
      cases hvalue : evalWith defs deeper scrutinee with
      | error f => exact .scrutineeFails hdepth (hvalue ▸ hscrutinee)
      | ok value =>
          rw [hvalue] at hscrutinee
          show ComesTo defs bound depth _ (match value.select? cases with
            | some (_, bindings, body) => deeper (body.substitute bindings)
            | none => .error (.noMatchingCase value))
          split
          · rename_i place bindings body hselect
            exact .selected hdepth hscrutinee hselect (hdeeper _)
          · rename_i hselect
            exact .unmatched hdepth hscrutinee hselect

theorem comeTo_evalListWith (hdepth : depth ≤ bound)
    (hdeeper : ∀ e, ComesTo defs bound (depth + 1) e (deeper e)) (es : List Expr) :
    ComeTo defs bound depth es (evalListWith defs deeper es) := by
  match es with
  | [] => exact .nil
  | e :: es =>
      have hfirst := comesTo_evalWith hdepth hdeeper e
      have hrest := comeTo_evalListWith hdepth hdeeper es
      rw [evalListWith]
      cases hvalue : evalWith defs deeper e with
      | error f => exact .firstFails (hvalue ▸ hfirst)
      | ok value =>
          rw [hvalue] at hfirst
          cases hvalues : evalListWith defs deeper es with
          | error f => exact .restFails hfirst (hvalues ▸ hrest)
          | ok values => exact .cons hfirst (hvalues ▸ hrest)

end

mutual

theorem ComesTo.eq_evalWith (hdepth : depth ≤ bound)
    (hdeeper : ∀ e r, ComesTo defs bound (depth + 1) e r → r = deeper e) {e : Expr}
    {r : Except Fault Expr} (h : ComesTo defs bound depth e r) : r = evalWith defs deeper e := by
  cases e with
  | blank =>
      cases h with
      | tooDeep hdeep => omega
      | blank => rfl
  | const value =>
      cases h with
      | tooDeep hdeep => omega
      | const => rfl
  | object name =>
      rw [evalWith]
      cases h with
      | tooDeep hdeep => omega
      | object _ hbody => rw [hbody]
      | expanded _ hbody hresult =>
          rw [hbody]
          exact hdeeper _ _ hresult
  | operation name args =>
      rw [evalWith]
      cases h with
      | tooDeep hdeep => omega
      | argumentsFail _ hargs =>
          rw [← hargs.eq_evalListWith hdepth hdeeper]
          rfl
      | operation _ hargs hbody =>
          rw [← hargs.eq_evalListWith hdepth hdeeper]
          simp only [bind, Except.bind, hbody]
      | call _ hargs hbody hresult =>
          rw [← hargs.eq_evalListWith hdepth hdeeper]
          simp only [bind, Except.bind, hbody]
          exact hdeeper _ _ hresult
  | matching scrutinee cases =>
      rw [evalWith]
      cases h with
      | tooDeep hdeep => omega
      | scrutineeFails _ hscrutinee =>
          rw [← hscrutinee.eq_evalWith hdepth hdeeper]
          rfl
      | unmatched _ hscrutinee hselect =>
          rw [← hscrutinee.eq_evalWith hdepth hdeeper]
          simp only [bind, Except.bind, hselect]
      | selected _ hscrutinee hselect hresult =>
          rw [← hscrutinee.eq_evalWith hdepth hdeeper]
          simp only [bind, Except.bind, hselect]
          exact hdeeper _ _ hresult

theorem ComeTo.eq_evalListWith (hdepth : depth ≤ bound)
    (hdeeper : ∀ e r, ComesTo defs bound (depth + 1) e r → r = deeper e) {es : List Expr}
    {r : Except Fault (List Expr)} (h : ComeTo defs bound depth es r) :
    r = evalListWith defs deeper es := by
  match es with
  | [] =>
      cases h
      rfl
  | e :: es =>
      rw [evalListWith]
      cases h with
      | firstFails hfirst =>
          rw [← hfirst.eq_evalWith hdepth hdeeper]
          rfl
      | restFails hfirst hrest =>
          rw [← hfirst.eq_evalWith hdepth hdeeper, ← hrest.eq_evalListWith hdepth hdeeper]
          rfl
      | cons hfirst hrest =>
          rw [← hfirst.eq_evalWith hdepth hdeeper, ← hrest.eq_evalListWith hdepth hdeeper]
          rfl

end

end

theorem comesTo_iff {defs : List Definition} {bound levels depth : Nat}
    (hlevels : levels + depth = bound + 1) {e : Expr} {r : Except Fault Expr} :
    ComesTo defs bound depth e r ↔ r = evalLevels defs bound levels e := by
  induction levels generalizing depth e r with
  | zero =>
      constructor
      · intro h
        cases h with
        | tooDeep => rfl
        | _ => omega
      · rintro rfl
        exact .tooDeep (by omega)
  | succ levels ih =>
      have hnext : levels + (depth + 1) = bound + 1 := by omega
      constructor
      · exact fun h => h.eq_evalWith (by omega) fun e r => (ih hnext).1
      · rintro rfl
        exact comesTo_evalWith (by omega) (fun e => (ih hnext).2 rfl) e

/-- Two runs come to the same, unless the first of them is given up. -/
def SameUnlessGivenUp {α : Type} (bound : Nat) (x y : Except Fault α) : Prop :=
  x = .error (.tooDeep bound) ∨ y = x

namespace SameUnlessGivenUp

variable {α β : Type} {bound : Nat}

theorem refl (x : Except Fault α) : SameUnlessGivenUp bound x x := .inr rfl

theorem bind {x y : Except Fault α} {f g : α → Except Fault β} (h : SameUnlessGivenUp bound x y)
    (hf : ∀ a, SameUnlessGivenUp bound (f a) (g a)) :
    SameUnlessGivenUp bound (x >>= f) (y >>= g) := by
  rcases h with rfl | rfl
  · exact .inl rfl
  · cases y with
    | error e => exact .refl _
    | ok a => exact hf a

end SameUnlessGivenUp

section

variable {defs : List Definition} {bound : Nat} {deeper deeper' : Expr → Except Fault Expr}

mutual

theorem evalWith_sameUnlessGivenUp (h : ∀ e, SameUnlessGivenUp bound (deeper e) (deeper' e))
    (e : Expr) :
    SameUnlessGivenUp bound (evalWith defs deeper e) (evalWith defs deeper' e) := by
  cases e with
  | blank | const => exact .refl _
  | object name =>
      rw [evalWith, evalWith]
      split
      · exact h _
      · exact .refl _
  | operation name args =>
      rw [evalWith, evalWith]
      refine (evalListWith_sameUnlessGivenUp h args).bind fun values => ?_
      split
      · exact h _
      · exact .refl _
  | matching scrutinee cases =>
      rw [evalWith, evalWith]
      refine (evalWith_sameUnlessGivenUp h scrutinee).bind fun value => ?_
      split
      · exact h _
      · exact .refl _

theorem evalListWith_sameUnlessGivenUp (h : ∀ e, SameUnlessGivenUp bound (deeper e) (deeper' e))
    (es : List Expr) :
    SameUnlessGivenUp bound (evalListWith defs deeper es) (evalListWith defs deeper' es) := by
  match es with
  | [] => exact .refl _
  | e :: es =>
      rw [evalListWith, evalListWith]
      refine (evalWith_sameUnlessGivenUp h e).bind fun value => ?_
      exact (evalListWith_sameUnlessGivenUp h es).bind fun values => .refl _

end

theorem evalLevels_sameUnlessGivenUp {bound' levels levels' : Nat} (hlevels : levels ≤ levels')
    (e : Expr) :
    SameUnlessGivenUp bound (evalLevels defs bound levels e) (evalLevels defs bound' levels' e) := by
  induction levels generalizing levels' e with
  | zero => exact .inl rfl
  | succ levels ih =>
      cases levels' with
      | zero => omega
      | succ levels' =>
          exact evalWith_sameUnlessGivenUp (ih (Nat.le_of_succ_le_succ hlevels)) e

end

theorem depthBound_of_pos {depth : Int} (h : 0 < depth) : depthBound depth = depth.toNat :=
  if_neg (by omega)

/-- The bound only cuts evaluation off. Under every bound an expression comes to one end by finitely
many steps; a value that is found under a bound, or that no case of a match fits, is found under every
larger bound too. -/
theorem depth_only_cuts_off (defs : List Definition) (e : Expr) :
    (∀ depth : Int, 0 < depth → ∀ r,
      ComesTo defs depth.toNat 0 e r ↔ r = eval defs depth e) ∧
    ∀ depth depth' : Int, 0 < depth → depth ≤ depth' →
      (∀ v, eval defs depth e = .ok v → eval defs depth' e = .ok v) ∧
      (∀ v, eval defs depth e = .error (.noMatchingCase v) →
        eval defs depth' e = .error (.noMatchingCase v)) ∧
      SameUnlessGivenUp depth.toNat (eval defs depth e) (eval defs depth' e) := by
  refine ⟨fun depth hpos r => ?_, fun depth depth' hpos hle => ?_⟩
  · rw [eval, depthBound_of_pos hpos]
    have hlevels : depth.toNat + 1 + 0 = depth.toNat + 1 := rfl
    exact comesTo_iff hlevels
  · have hsame : SameUnlessGivenUp depth.toNat (eval defs depth e) (eval defs depth' e) := by
      rw [eval, eval, depthBound_of_pos hpos, depthBound_of_pos (Int.lt_of_lt_of_le hpos hle)]
      exact evalLevels_sameUnlessGivenUp (by omega) e
    refine ⟨fun v hv => ?_, fun v hv => ?_, hsame⟩
    · rw [hv] at hsame
      exact hsame.resolve_left (by simp)
    · rw [hv] at hsame
      exact hsame.resolve_left (by simp)

/-- Calls itself unless it is given a zero. -/
def countdown : Definition :=
  ⟨"countdown", [⟨"n", none⟩], none, .matching (.object "n")
    [(.constructor "Zero" [], .object "Done"),
      (.constructor "Next" [.var "m"], .operation "countdown" [.object "m"])]⟩

/-- Calls itself for ever. -/
def forever : Definition :=
  ⟨"forever", [⟨"x", none⟩], none, .operation "forever" [.object "x"]⟩

theorem depth_only_cuts_off_countdown :
    eval [countdown, forever] 3 (.operation "countdown" [.operation "Next" [.object "Zero"]]) =
        .error (.tooDeep 3) ∧
      eval [countdown, forever] 1000 (.operation "countdown" [.operation "Next" [.object "Zero"]]) =
        .ok (.object "Done") ∧
      eval [countdown, forever] 1000 (.operation "countdown" [.const "1"]) =
        .error (.noMatchingCase (.const "1")) ∧
      ComesTo [countdown, forever] 4 0 (.operation "forever" [.const "1"])
        (.error (.tooDeep 4)) := by
  have hvalue : eval [countdown, forever] 4
      (.operation "countdown" [.operation "Next" [.object "Zero"]]) = .ok (.object "Done") := by cbv
  have hunmatched : eval [countdown, forever] 4 (.operation "countdown" [.const "1"]) =
      .error (.noMatchingCase (.const "1")) := by cbv
  have hforever : eval [countdown, forever] 4 (.operation "forever" [.const "1"]) =
      .error (.tooDeep 4) := by cbv
  refine ⟨by cbv, ?_, ?_, ?_⟩
  · exact ((depth_only_cuts_off _ _).2 4 1000 (by decide) (by decide)).1 _ hvalue
  · exact ((depth_only_cuts_off _ _).2 4 1000 (by decide) (by decide)).2.1 _ hunmatched
  · exact ((depth_only_cuts_off _ _).1 4 (by decide) _).2 hforever.symm

end Formulary.Evaluation
