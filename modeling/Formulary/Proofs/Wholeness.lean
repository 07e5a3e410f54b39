import Formulary.Evaluation
import Formulary.Proofs.Steps
import Formulary.Registry
import Formulary.StandardLibrary

namespace Formulary

namespace TypeExpr

mutual

/-- Whether something is written in every place of a type. -/
def isWhole : TypeExpr → Bool
  | .blank => false
  | .named _ | .nat _ | .tag _ => true
  | .app _ args => isWholeList args
  | .arrow domain codomain => domain.isWhole && codomain.isWhole

def isWholeList : List TypeExpr → Bool
  | [] => true
  | e :: es => e.isWhole && isWholeList es

end

theorem isWholeList_iff {es : List TypeExpr} :
    isWholeList es = true ↔ ∀ e ∈ es, e.isWhole = true := by
  induction es with
  | nil => simp [isWholeList]
  | cons e es ih => simp [isWholeList, ih]

theorem isWhole_splitArrow {e : TypeExpr} (h : e.isWhole = true) :
    isWholeList e.splitArrow.1 = true ∧ e.splitArrow.2.isWhole = true := by
  match e with
  | .arrow domain codomain =>
      simp only [isWhole, Bool.and_eq_true] at h
      obtain ⟨hparams, hresult⟩ := isWhole_splitArrow h.2
      simp only [splitArrow, isWholeList, Bool.and_eq_true]
      exact ⟨⟨h.1, hparams⟩, hresult⟩
  | .blank | .named _ | .nat _ | .tag _ | .app _ _ => exact ⟨rfl, h⟩

end TypeExpr

namespace Expr

mutual

/-- Whether something is written in every place of an expression. -/
def isWhole : Expr → Bool
  | .blank => false
  | .const _ | .object _ => true
  | .operation _ args => isWholeList args
  | .matching scrutinee cases => scrutinee.isWhole && isWholeCases cases

def isWholeList : List Expr → Bool
  | [] => true
  | e :: es => e.isWhole && isWholeList es

def isWholeCases : List (Pattern × Expr) → Bool
  | [] => true
  | (_, body) :: rest => body.isWhole && isWholeCases rest

end

theorem isWholeList_iff {es : List Expr} :
    isWholeList es = true ↔ ∀ e ∈ es, e.isWhole = true := by
  induction es with
  | nil => simp [isWholeList]
  | cons e es ih => simp [isWholeList, ih]

end Expr

def Binder.isWhole (b : Binder) : Bool := b.type.all TypeExpr.isWhole

def DataType.isWhole (d : DataType) : Bool :=
  d.variants.all fun v => v.fields.all (·.type.isWhole)

def Axiom.isWhole (a : Axiom) : Bool := a.vars.all Binder.isWhole && a.body.isWhole

def Structure.isWhole (s : Structure) : Bool :=
  s.params.all Binder.isWhole && s.operations.all (·.signature.isWhole) && s.axioms.all Axiom.isWhole

def OperationBody.isWhole (b : OperationBody) : Bool := b.expr.all Expr.isWhole

def Implementation.isWhole (i : Implementation) : Bool :=
  TypeExpr.isWholeList i.args && i.bodies.all OperationBody.isWhole

def Definition.isWhole (d : Definition) : Bool :=
  d.params.all Binder.isWhole && d.result.all TypeExpr.isWhole && d.body.isWhole

def Declaration.isWhole : Declaration → Bool
  | .data d => d.isWhole
  | .interface s => s.isWhole
  | .implementation i => i.isWhole
  | .definition d => d.isWhole

theorem StandardLibrary.dataTypes_isWhole :
    StandardLibrary.dataTypes.all Declaration.isWhole = true := by
  decide

theorem StandardLibrary.structures_isWhole :
    StandardLibrary.structures.all Declaration.isWhole = true := by
  decide

def DataTypes.isWhole (r : DataTypes) : Bool := r.types.all DataType.isWhole

def Registry.isWhole (r : Registry) : Bool :=
  r.data.isWhole && r.structures.all Structure.isWhole &&
    r.implementations.all fun i => i.interface.isWhole && i.decl.isWhole

theorem DataTypes.isWhole_of_variant? {r : DataTypes} {name : String} {d : DataType} {v : Variant}
    (hr : r.isWhole = true) (h : r.variant? name = some (d, v)) :
    ∀ f ∈ v.fields, f.type.isWhole = true := by
  simp only [variant?, List.findSome?_eq_some_iff, Option.map_eq_some_iff, Prod.mk.injEq] at h
  obtain ⟨before, d', after, htypes, ⟨v', hv, rfl, rfl⟩, -⟩ := h
  have hd : d'.isWhole = true := List.all_eq_true.1 hr d' (by simp [htypes])
  exact List.all_eq_true.1 (List.all_eq_true.1 hd v' (List.mem_of_find?_eq_some hv))

theorem Structure.isWhole_of_operation? {s : Structure} {name : String} {op : Operation}
    (hs : s.isWhole = true) (h : s.operation? name = some op) : op.signature.isWhole = true := by
  simp only [isWhole, Bool.and_eq_true] at hs
  exact List.all_eq_true.1 hs.1.2 op (List.mem_of_find?_eq_some h)

namespace Registry

variable {r : Registry}

theorem isWhole_iff : r.isWhole = true ↔
    r.data.isWhole = true ∧ (∀ s ∈ r.structures, s.isWhole = true) ∧
      ∀ i ∈ r.implementations, i.interface.isWhole = true ∧ i.decl.isWhole = true := by
  simp [isWhole, and_assoc]

theorem isWhole_data (h : r.isWhole = true) : r.data.isWhole = true := (isWhole_iff.1 h).1

theorem isWhole_of_operation? {name : String} {s : Structure} {op : Operation}
    (hr : r.isWhole = true) (h : r.operation? name = some (s, op)) :
    s.isWhole = true ∧ op.signature.isWhole = true := by
  simp only [operation?, List.findSome?_eq_some_iff, Option.map_eq_some_iff, Prod.mk.injEq] at h
  obtain ⟨before, s', after, hstructures, ⟨op', hop, rfl, rfl⟩, -⟩ := h
  have hs : s'.isWhole = true := (isWhole_iff.1 hr).2.1 s' (by simp [hstructures])
  exact ⟨hs, s'.isWhole_of_operation? hs hop⟩

end Registry

namespace Expr

mutual

theorem isWhole_rename (names : List (String × String)) (e : Expr) :
    (e.rename names).isWhole = e.isWhole := by
  cases e with
  | blank | const | object => rfl
  | operation name args => simp only [rename, isWhole, isWholeList_renameList names args]
  | matching scrutinee cases =>
      simp only [rename, isWhole, isWhole_rename names scrutinee, isWholeCases_renameCases names cases]

theorem isWholeList_renameList (names : List (String × String)) (es : List Expr) :
    isWholeList (renameList names es) = isWholeList es := by
  cases es with
  | nil => rfl
  | cons e es => simp only [renameList, isWholeList, isWhole_rename names e, isWholeList_renameList]

theorem isWholeCases_renameCases (names : List (String × String)) (cases : List (Pattern × Expr)) :
    isWholeCases (renameCases names cases) = isWholeCases cases := by
  match cases with
  | [] => rfl
  | (p, body) :: rest =>
      simp only [renameCases, isWholeCases, isWhole_rename _ body, isWholeCases_renameCases]

end

theorem isWhole_avoidCapture (bindings : Bindings) (p : Pattern) (body : Expr) :
    (avoidCapture bindings p body).2.isWhole = body.isWhole := by
  simp only [avoidCapture]
  split
  · rfl
  · exact isWhole_rename _ body

/-- What names stand for lacks no part. -/
def Bindings.Whole (bindings : Bindings) : Prop := ∀ b ∈ bindings, b.2.isWhole = true

theorem Bindings.Whole.without {bindings : Bindings} (h : bindings.Whole) (names : List String) :
    (bindings.without names).Whole := fun b hb => h b (List.mem_filter.1 hb).1

theorem Bindings.Whole.bind {bindings : Bindings} (h : bindings.Whole) (name : String) {e : Expr}
    (he : e.isWhole = true) : (bindings.bind name e).Whole :=
  List.forall_mem_cons.2 ⟨he, h.without [name]⟩

mutual

theorem isWhole_substitute {bindings : Bindings} (hb : bindings.Whole) {e : Expr}
    (he : e.isWhole = true) : (e.substitute bindings).isWhole = true := by
  match e with
  | .blank => simp [isWhole] at he
  | .const value => rw [substitute, isWhole]
  | .object name =>
      rw [substitute]
      cases h : bindings.lookup name with
      | none => rfl
      | some value =>
          obtain ⟨before, after, hlist, -⟩ := List.lookup_eq_some_iff.1 h
          exact hb (name, value) (by simp [hlist])
  | .operation name args =>
      rw [isWhole] at he
      rw [substitute, isWhole]
      exact isWholeList_substituteList hb he
  | .matching scrutinee cases =>
      rw [isWhole, Bool.and_eq_true] at he
      rw [substitute, isWhole, Bool.and_eq_true]
      exact ⟨isWhole_substitute hb he.1, isWholeCases_substituteCases hb he.2⟩
termination_by e.size
decreasing_by all_goals simp only [size]; omega

theorem isWholeList_substituteList {bindings : Bindings} (hb : bindings.Whole) {es : List Expr}
    (hes : isWholeList es = true) : isWholeList (substituteList bindings es) = true := by
  match es with
  | [] =>
      rw [substituteList]
      exact hes
  | e :: es =>
      rw [isWholeList, Bool.and_eq_true] at hes
      rw [substituteList, isWholeList, Bool.and_eq_true]
      exact ⟨isWhole_substitute hb hes.1, isWholeList_substituteList hb hes.2⟩
termination_by sizeList es
decreasing_by all_goals simp only [sizeList]; omega

theorem isWholeCases_substituteCases {bindings : Bindings} (hb : bindings.Whole)
    {cases : List (Pattern × Expr)} (hcases : isWholeCases cases = true) :
    isWholeCases (substituteCases bindings cases) = true := by
  match cases with
  | [] =>
      rw [substituteCases]
      exact hcases
  | (p, body) :: rest =>
      rw [isWholeCases, Bool.and_eq_true] at hcases
      rw [substituteCases, isWholeCases, Bool.and_eq_true]
      refine ⟨isWhole_substitute (hb.without p.vars) ?_, isWholeCases_substituteCases hb hcases.2⟩
      rw [isWhole_avoidCapture]
      exact hcases.1
termination_by sizeCases cases
decreasing_by
  · simp only [sizeCases, size_avoidCapture]
    omega
  · simp only [sizeCases]
    omega

end

end Expr

namespace Pattern

mutual

theorem whole_matchInto {bindings bindings' : Expr.Bindings} {p : Pattern} {value : Expr}
    (hb : bindings.Whole) (hvalue : value.isWhole = true)
    (h : p.matchInto bindings value = some bindings') : bindings'.Whole := by
  unfold matchInto at h
  split at h
  · cases h
    exact hb
  · cases h
    exact hb.bind _ hvalue
  · split at h
    · cases h
      exact hb
    · cases h
  · split at h
    · cases h
      exact hb
    · cases h
  · split at h
    · rw [Expr.isWhole] at hvalue
      exact whole_matchListInto hb hvalue h
    · cases h
  · cases h
termination_by sizeOf p

theorem whole_matchListInto {bindings bindings' : Expr.Bindings} {ps : List Pattern}
    {values : List Expr} (hb : bindings.Whole) (hvalues : Expr.isWholeList values = true)
    (h : matchListInto bindings ps values = some bindings') : bindings'.Whole := by
  match ps, values with
  | [], [] =>
      cases h
      exact hb
  | [], _ :: _ => cases h
  | _ :: _, [] => cases h
  | p :: ps, value :: values =>
      rw [Expr.isWholeList, Bool.and_eq_true] at hvalues
      rw [matchListInto] at h
      split at h
      · rename_i bindings₁ hmatch
        exact whole_matchListInto (whole_matchInto hb hvalues.1 hmatch) hvalues.2 h
      · cases h
termination_by sizeOf ps

end

end Pattern

theorem Expr.whole_selectFrom? {value : Expr} {index i : Nat} {cases : List (Pattern × Expr)}
    {bindings : Bindings} {body : Expr} (hvalue : value.isWhole = true)
    (hcases : isWholeCases cases = true)
    (h : value.selectFrom? index cases = some (i, bindings, body)) :
    bindings.Whole ∧ body.isWhole = true := by
  induction cases generalizing index with
  | nil => cases h
  | cons c rest ih =>
      obtain ⟨p, body'⟩ := c
      rw [isWholeCases, Bool.and_eq_true] at hcases
      rw [selectFrom?] at h
      split at h
      · rename_i bindings' hmatch
        cases h
        exact ⟨Pattern.whole_matchInto (fun _ hb => absurd hb List.not_mem_nil) hvalue hmatch,
          hcases.1⟩
      · exact ih hcases.2 h

namespace Evaluation

/-- The faults of evaluation: it may go too deep, and no case may match. -/
inductive IsFault : Fault → Prop where
  | tooDeep (bound : Nat) : IsFault (.tooDeep bound)
  | noMatchingCase (value : Expr) : IsFault (.noMatchingCase value)

theorem whole_bindAll {pairs : List (String × Expr)} {bindings : Expr.Bindings}
    (hb : bindings.Whole) (hpairs : ∀ b ∈ pairs, b.2.isWhole = true) :
    (pairs.foldl (fun bindings (name, arg) => bindings.bind name arg) bindings).Whole := by
  induction pairs generalizing bindings with
  | nil => exact hb
  | cons b pairs ih =>
      exact ih (hb.bind b.1 (hpairs b (List.mem_cons_self ..))) fun b' hb' =>
        hpairs b' (List.mem_cons_of_mem _ hb')

theorem whole_expand? {defs : List Definition} {name : String} {args : List Expr} {body : Expr}
    (hdefs : defs.all Definition.isWhole = true) (hargs : Expr.isWholeList args = true)
    (h : expand? defs name args = some body) : body.isWhole = true := by
  unfold expand? at h
  split at h
  · rename_i d hd
    split at h
    · cases h
      have hmem : d ∈ defs := (List.mem_filter.1 (List.mem_of_getLast? hd)).1
      have hwhole := List.all_eq_true.1 hdefs d hmem
      simp only [Definition.isWhole, Bool.and_eq_true] at hwhole
      refine Expr.isWhole_substitute ?_ hwhole.2
      exact whole_bindAll (fun _ hb => absurd hb List.not_mem_nil) fun b hb =>
        Expr.isWholeList_iff.1 hargs b.2 (List.of_mem_zip hb).2
    · cases h
  · cases h

section

variable {defs : List Definition} {deeper : Expr → Except Fault Expr}

mutual

theorem evalWith_ends (hdefs : defs.all Definition.isWhole = true)
    (hdeeper : ∀ e, e.isWhole = true → Ends (·.isWhole = true) IsFault (deeper e)) {e : Expr}
    (he : e.isWhole = true) : Ends (·.isWhole = true) IsFault (evalWith defs deeper e) := by
  cases e with
  | blank => simp [Expr.isWhole] at he
  | const value => rfl
  | object name =>
      rw [evalWith]
      split
      · rename_i body hbody
        exact hdeeper body (whole_expand? hdefs rfl hbody)
      · rfl
  | operation name args =>
      rw [Expr.isWhole] at he
      rw [evalWith]
      refine (evalListWith_ends hdefs hdeeper he).bind fun values hvalues => ?_
      split
      · rename_i body hbody
        exact hdeeper body (whole_expand? hdefs hvalues hbody)
      · exact hvalues
  | matching scrutinee cases =>
      rw [Expr.isWhole, Bool.and_eq_true] at he
      rw [evalWith]
      refine (evalWith_ends hdefs hdeeper he.1).bind fun value hvalue => ?_
      split
      · rename_i i bindings body hselect
        obtain ⟨hbindings, hbody⟩ := Expr.whole_selectFrom? hvalue he.2 hselect
        exact hdeeper _ (Expr.isWhole_substitute hbindings hbody)
      · exact .noMatchingCase value

theorem evalListWith_ends (hdefs : defs.all Definition.isWhole = true)
    (hdeeper : ∀ e, e.isWhole = true → Ends (·.isWhole = true) IsFault (deeper e)) {es : List Expr}
    (hes : Expr.isWholeList es = true) :
    Ends (Expr.isWholeList · = true) IsFault (evalListWith defs deeper es) := by
  match es with
  | [] => rfl
  | e :: es =>
      rw [Expr.isWholeList, Bool.and_eq_true] at hes
      rw [evalListWith]
      refine (evalWith_ends hdefs hdeeper hes.1).bind fun value hvalue => ?_
      refine (evalListWith_ends hdefs hdeeper hes.2).bind fun values hvalues => ?_
      exact Bool.and_eq_true_iff.2 ⟨hvalue, hvalues⟩

end

end

theorem eval_ends {defs : List Definition} (hdefs : defs.all Definition.isWhole = true)
    (depth : Int) {e : Expr} (he : e.isWhole = true) :
    Ends (·.isWhole = true) IsFault (eval defs depth e) := by
  have hlevels : ∀ bound levels e, e.isWhole = true →
      Ends (·.isWhole = true) IsFault (evalLevels defs bound levels e) := by
    intro bound levels
    induction levels with
    | zero => exact fun e _ => .tooDeep bound
    | succ levels ih => exact fun e he => evalWith_ends hdefs ih he
  exact hlevels _ _ e he

end Evaluation

end Formulary
