import Formulary.Proofs.Evaluating

namespace Formulary

/-- What evaluation takes apart. -/
def Expr.IsReducible (defs : List Definition) : Expr → Prop
  | .blank | .const _ => False
  | .object name => ∃ d, Evaluation.definition? defs name = some d ∧ d.params = []
  | .operation name args =>
    ∃ d, Evaluation.definition? defs name = some d ∧ d.params.length = args.length
  | .matching _ _ => True

namespace Evaluation

variable {defs : List Definition} {deeper : Expr → Except Fault Expr}

theorem isNone_expand?_iff {name : String} {args : List Expr} :
    (expand? defs name args).isNone = true ↔
      ∀ d, definition? defs name = some d → d.params.length ≠ args.length := by
  rw [Option.isNone_iff_eq_none]
  constructor
  · intro hnone d hd hlength
    have hbody := expand?_eq_some_iff.2 ⟨d, hd, hlength, rfl⟩
    rw [hnone] at hbody
    cases hbody
  · intro h
    cases hbody : expand? defs name args with
    | none => rfl
    | some body =>
        obtain ⟨d, hd, hlength, -⟩ := expand?_eq_some_iff.1 hbody
        exact absurd hlength (h d hd)

mutual

theorem not_isReducible_of_isNormal {e part : Expr} (h : e.isNormal defs = true)
    (hpart : part ∈ e.parts) : ¬part.IsReducible defs := by
  cases e with
  | blank => cases hpart
  | const value =>
      obtain rfl := List.mem_singleton.1 hpart
      exact id
  | object name =>
      obtain rfl := List.mem_singleton.1 hpart
      rintro ⟨d, hd, hparams⟩
      exact isNone_expand?_iff.1 h d hd (congrArg List.length hparams)
  | operation name args =>
      rw [Expr.isNormal, Bool.and_eq_true] at h
      rcases List.mem_cons.1 hpart with rfl | hpart
      · rintro ⟨d, hd, hlength⟩
        exact isNone_expand?_iff.1 h.1 d hd hlength
      · exact not_isReducible_of_isNormalList h.2 hpart
  | matching scrutinee cases => cases h

theorem not_isReducible_of_isNormalList {es : List Expr} {part : Expr}
    (h : Expr.isNormalList defs es = true) (hpart : part ∈ Expr.partsList es) :
    ¬part.IsReducible defs := by
  match es with
  | [] => cases hpart
  | e :: es =>
      rw [Expr.isNormalList, Bool.and_eq_true] at h
      rcases List.mem_append.1 hpart with hpart | hpart
      · exact not_isReducible_of_isNormal h.1 hpart
      · exact not_isReducible_of_isNormalList h.2 hpart

end

mutual

theorem evalWith_isNormal
    (hdeeper : ∀ e, Ends (·.isNormal defs = true) (fun _ => True) (deeper e)) (e : Expr) :
    Ends (·.isNormal defs = true) (fun _ => True) (evalWith defs deeper e) := by
  cases e with
  | blank => trivial
  | const value => exact rfl
  | object name =>
      rw [evalWith]
      split
      · exact hdeeper _
      · rename_i hnone
        exact Option.isNone_iff_eq_none.2 hnone
  | operation name args =>
      rw [evalWith]
      refine (evalListWith_isNormal hdeeper args).bind fun values hvalues => ?_
      split
      · exact hdeeper _
      · rename_i hnone
        exact Bool.and_eq_true_iff.2 ⟨Option.isNone_iff_eq_none.2 hnone, hvalues⟩
  | matching scrutinee cases =>
      rw [evalWith]
      refine (evalWith_isNormal hdeeper scrutinee).bind fun value _ => ?_
      split
      · exact hdeeper _
      · trivial

theorem evalListWith_isNormal
    (hdeeper : ∀ e, Ends (·.isNormal defs = true) (fun _ => True) (deeper e)) (es : List Expr) :
    Ends (Expr.isNormalList defs · = true) (fun _ => True) (evalListWith defs deeper es) := by
  match es with
  | [] => exact rfl
  | e :: es =>
      rw [evalListWith]
      refine (evalWith_isNormal hdeeper e).bind fun value hvalue => ?_
      refine (evalListWith_isNormal hdeeper es).bind fun values hvalues => ?_
      exact Bool.and_eq_true_iff.2 ⟨hvalue, hvalues⟩

end

mutual

theorem evalWith_of_isNormal {e : Expr} (h : e.isNormal defs = true) :
    evalWith defs deeper e = .ok e := by
  cases e with
  | blank => cases h
  | const value => rfl
  | object name => rw [evalWith, Option.isNone_iff_eq_none.1 h]
  | operation name args =>
      rw [Expr.isNormal, Bool.and_eq_true] at h
      rw [evalWith, evalListWith_of_isNormalList h.2]
      show (match expand? defs name args with
        | some body => deeper body
        | none => .ok (.operation name args)) = _
      rw [Option.isNone_iff_eq_none.1 h.1]
  | matching scrutinee cases => cases h

theorem evalListWith_of_isNormalList {es : List Expr} (h : Expr.isNormalList defs es = true) :
    evalListWith defs deeper es = .ok es := by
  match es with
  | [] => rfl
  | e :: es =>
      rw [Expr.isNormalList, Bool.and_eq_true] at h
      rw [evalListWith, evalWith_of_isNormal h.1, evalListWith_of_isNormalList h.2]
      rfl

end

theorem evalLevels_isNormal (defs : List Definition) (bound levels : Nat) (e : Expr) :
    Ends (·.isNormal defs = true) (fun _ => True) (evalLevels defs bound levels e) := by
  induction levels generalizing e with
  | zero => trivial
  | succ levels ih => exact evalWith_isNormal ih e

theorem eval_eq_self_iff {depth : Int} {e : Expr} :
    eval defs depth e = .ok e ↔ e.isNormal defs = true := by
  refine ⟨fun h => ?_, evalWith_of_isNormal⟩
  have hends := evalLevels_isNormal defs (depthBound depth) (depthBound depth + 1) e
  rwa [show evalLevels defs (depthBound depth) (depthBound depth + 1) e = .ok e from h] at hends

/-- What an expression evaluates to holds nothing that evaluation takes apart, and whatever depth is
chosen it evaluates to itself. -/
theorem value_is_normal {defs : List Definition} {depth : Int} {e v : Expr}
    (h : eval defs depth e = .ok v) :
    (∀ part ∈ v.parts, ¬part.IsReducible defs) ∧ ∀ depth', eval defs depth' v = .ok v := by
  have hends := evalLevels_isNormal defs (depthBound depth) (depthBound depth + 1) e
  rw [show evalLevels defs (depthBound depth) (depthBound depth + 1) e = .ok v from h] at hends
  exact ⟨fun part => not_isReducible_of_isNormal hends, fun _ => eval_eq_self_iff.2 hends⟩

/-- A pair with its parts exchanged. -/
def exchange : Definition :=
  ⟨"exchange", [⟨"p", none⟩], none, .matching (.object "p")
    [(.constructor "Pair" [.var "x", .var "y"], .operation "Pair" [.object "y", .object "x"])]⟩

/-- A definition without parameters that calls the one before, and gives it as an argument too. -/
def exchanged : Definition :=
  ⟨"exchanged", [], none,
    .operation "exchange" [.operation "Pair" [.object "exchange", .operation "exchange" []]]⟩

theorem value_is_normal_exchanged :
    eval [exchange, exchanged] 5 (.object "exchanged") =
        .ok (.operation "Pair" [.operation "exchange" [], .object "exchange"]) ∧
      ¬(Expr.operation "exchange" []).IsReducible [exchange, exchanged] ∧
      eval [exchange, exchanged] 1 (.operation "Pair" [.operation "exchange" [], .object "exchange"]) =
        .ok (.operation "Pair" [.operation "exchange" [], .object "exchange"]) := by
  have hrun : eval [exchange, exchanged] 5 (.object "exchanged") =
      .ok (.operation "Pair" [.operation "exchange" [], .object "exchange"]) := by cbv
  obtain ⟨hparts, hself⟩ := value_is_normal hrun
  exact ⟨hrun, hparts _ (by simp [Expr.parts, Expr.partsList]), hself 1⟩

end Evaluation

end Formulary
