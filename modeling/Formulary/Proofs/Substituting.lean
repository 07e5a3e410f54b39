import Formulary.Proofs.Capture
import Formulary.Proofs.Procedures
import Formulary.Proofs.Wholeness

namespace Formulary.Expr

/-- An expression and the bindings that are to be put into it. -/
structure Replacing where
  bindings : Bindings
  expr : Expr

/-- The number of nodes, blanks left out. -/
def nodes (e : Expr) : Nat := e.parts.length

/-- The variables of a pattern that bound expressions refer to. -/
def caughtNames (bindings : Bindings) (p : Pattern) : List String :=
  p.vars.filter (· ∈ bindings.freeNames)

/-- New names for the variables of a case that bound expressions refer to. -/
def newNames (bindings : Bindings) (p : Pattern) (body : Expr) : List (String × String) :=
  freshNames (body.mentioned ++ bindings.map (·.1) ++ bindings.freeNames ++ p.vars)
    (caughtNames bindings p)

/-- Bindings that put other names for names. -/
def Bindings.ofNames (names : List (String × String)) : Bindings :=
  names.map fun (name, fresh) => (name, .object fresh)

/-- What is done to substitute on the way to a value. -/
abbrev SubstituteTree (α : Type) : Type := CallTree Replacing Expr α

/-- Substitutes into each expression of a list. -/
def askList (bindings : Bindings) : List Expr → SubstituteTree (List Expr)
  | [] => pure []
  | e :: es => do
    let e ← .ask ⟨bindings, e⟩
    return e :: (← askList bindings es)

/-- Renames the variables of a case that the bindings refer to. -/
def prepare (bindings : Bindings) (p : Pattern) (body : Expr) : SubstituteTree (Pattern × Expr) :=
  if (caughtNames bindings p).isEmpty then pure (p, body)
  else do
    let names := newNames bindings p body
    let body ← .ask ⟨.ofNames names, body⟩
    return (p.rename names, body)

/-- Substitutes into each of the cases. -/
def askCases (bindings : Bindings) : List (Pattern × Expr) → SubstituteTree (List (Pattern × Expr))
  | [] => pure []
  | (p, body) :: rest => do
    let inner := bindings.without p.vars
    let (p, body) ← prepare inner p body
    let body ← .ask ⟨inner, body⟩
    return (p, body) :: (← askCases bindings rest)

/-- Substitution. With no bindings the expression is not looked at. -/
def substitution : Procedure Replacing Expr
  | ⟨[], e⟩ => pure e
  | ⟨_ :: _, .blank⟩ => .fault
  | ⟨_ :: _, .const value⟩ => pure (.const value)
  | ⟨bindings, .object name⟩ => pure ((bindings.lookup name).getD (.object name))
  | ⟨bindings, .operation name args⟩ => return .operation name (← askList bindings args)
  | ⟨bindings, .matching scrutinee cases⟩ => do
    let cases ← askCases bindings cases
    let scrutinee ← .ask ⟨bindings, scrutinee⟩
    return .matching scrutinee cases

/-- The search for a fresh name, from a number on. -/
def trying (name : String) (used : List String) : Procedure Nat String := fun i =>
  let next := name ++ toString i
  if next ∈ used then .ask (i + 1) else pure next

theorem freshName_eq {name : String} {used : List String} {i : Nat} (hi : 1 ≤ i)
    (hbefore : ∀ j, 1 ≤ j → j < i → name ++ toString j ∈ used) (hfree : name ++ toString i ∉ used) :
    freshName name used = name ++ toString i := by
  obtain ⟨k, hk, hfresh⟩ := exists_candidate name used
  obtain ⟨i, rfl⟩ : ∃ m, i = m + 1 := ⟨i - 1, by omega⟩
  have hle : i ≤ k := by
    by_contra hlt
    exact hfresh (hbefore (k + 1) (by omega) (by omega))
  have hfirst : (List.range (used.length + 1)).find?
      ((fun candidate => decide (candidate ∉ used)) ∘ fun j => name ++ toString (j + 1)) = some i := by
    refine List.find?_range_eq_some.2 ⟨by simpa using hfree, by simp; omega, fun j hj => ?_⟩
    simpa using hbefore (j + 1) (by omega) (by omega)
  simp only [freshName, List.find?_map, hfirst, Option.map_some, Option.getD_some]

theorem trying_meets (name : String) (used : List String) : (trying name used).Meets
    (fun i => 1 ≤ i ∧ ∀ j, 1 ≤ j → j < i → name ++ toString j ∈ used)
    (fun _ fresh => fresh = freshName name used) (fun i' i => i < i' ∧ i' ≤ used.length + 1) := by
  rintro i ⟨hi, hbefore⟩
  unfold trying
  dsimp only
  split
  case isTrue h =>
    have hbefore' : ∀ j, 1 ≤ j → j < i + 1 → name ++ toString j ∈ used := fun j hj hlt => by
      rcases Nat.lt_succ_iff_lt_or_eq.1 hlt with hlt | rfl
      · exact hbefore j hj hlt
      · exact h
    obtain ⟨k, hk, hfresh⟩ := exists_candidate name used
    have hle : i + 1 ≤ k + 1 := by
      by_contra hlt
      exact hfresh (hbefore' (k + 1) (by omega) (by omega))
    refine CallTree.yields_ask.2 ⟨⟨⟨by omega, hbefore'⟩, by omega, by omega⟩, fun _ h => h⟩
  case isFalse h => exact CallTree.yields_pure.2 (freshName_eq hi hbefore h).symm

theorem increasing_wellFounded (bound : Nat) :
    WellFounded fun i' i : Nat => i < i' ∧ i' ≤ bound :=
  Subrelation.wf (fun ⟨hlt, hle⟩ => by
    change bound - _ < bound - _
    omega) (measure fun i => bound - i).wf

mutual

theorem nodes_rename (names : List (String × String)) (e : Expr) :
    (e.rename names).nodes = e.nodes := by
  cases e with
  | blank | const | object => rfl
  | operation name args =>
      simp only [rename, nodes, parts, List.length_cons, length_partsList_renameList names args]
  | matching scrutinee cases =>
      have hscrutinee := nodes_rename names scrutinee
      simp only [nodes] at hscrutinee
      simp only [rename, nodes, parts, List.length_cons, List.length_append, hscrutinee,
        length_partsCases_renameCases names cases, List.cons_append]

theorem length_partsList_renameList (names : List (String × String)) (es : List Expr) :
    (partsList (renameList names es)).length = (partsList es).length := by
  cases es with
  | nil => rfl
  | cons e es =>
      have he := nodes_rename names e
      simp only [nodes] at he
      simp only [renameList, partsList, List.length_append, he, length_partsList_renameList names es]

theorem length_partsCases_renameCases (names : List (String × String))
    (cases : List (Pattern × Expr)) :
    (partsCases (renameCases names cases)).length = (partsCases cases).length := by
  match cases with
  | [] => rfl
  | (p, body) :: rest =>
      have hbody := nodes_rename (names.filter fun (name, _) => name ∉ p.vars) body
      simp only [nodes] at hbody
      simp only [renameCases, partsCases, List.length_append, hbody,
        length_partsCases_renameCases names rest]

end

theorem nodes_avoidCapture (bindings : Bindings) (p : Pattern) (body : Expr) :
    (avoidCapture bindings p body).2.nodes = body.nodes := by
  simp only [avoidCapture]
  split
  · rfl
  · exact nodes_rename _ body

/-- The bindings put other names for names, none of which is mentioned. -/
def Bindings.FreshFor (bindings : Bindings) (mentioned : List String) : Prop :=
  ∃ names, bindings = .ofNames names ∧ ∀ b ∈ names, b.2 ∉ mentioned

namespace Bindings

theorem without_ofNames (names : List (String × String)) (vars : List String) :
    (ofNames names).without vars = ofNames (names.filter fun (name, _) => name ∉ vars) := by
  rw [ofNames, without, List.filter_map]
  rfl

theorem freeNames_ofNames (names : List (String × String)) :
    (ofNames names).freeNames = names.map (·.2) := by
  rw [freeNames, ofNames, List.flatMap_map, List.map_eq_flatMap]
  rfl

theorem lookup_ofNames (names : List (String × String)) (name : String) :
    (ofNames names).lookup name = (names.lookup name).map .object := by
  induction names with
  | nil => rfl
  | cons b names ih =>
      rw [ofNames, List.map_cons, List.lookup_cons, List.lookup_cons]
      cases name == b.1 with
      | true => rfl
      | false => exact ih

namespace FreshFor

variable {bindings : Bindings} {mentioned vars : List String}

theorem mono {mentioned' : List String} (h : bindings.FreshFor mentioned)
    (hsub : mentioned' ⊆ mentioned) : bindings.FreshFor mentioned' := by
  obtain ⟨names, rfl, hfresh⟩ := h
  exact ⟨names, rfl, fun b hb hmem => hfresh b hb (hsub hmem)⟩

theorem without (h : bindings.FreshFor mentioned) (vars : List String) :
    (bindings.without vars).FreshFor mentioned := by
  obtain ⟨names, rfl, hfresh⟩ := h
  exact ⟨_, without_ofNames names vars, fun b hb => hfresh b (List.mem_filter.1 hb).1⟩

theorem caughtNames_eq_nil (h : bindings.FreshFor mentioned) {p : Pattern}
    (hp : p.vars ⊆ mentioned) : caughtNames bindings p = [] := by
  obtain ⟨names, rfl, hfresh⟩ := h
  rw [caughtNames, freeNames_ofNames, List.filter_eq_nil_iff]
  intro z hz hmem
  obtain ⟨b, hb, rfl⟩ := List.mem_map.1 (of_decide_eq_true hmem)
  exact hfresh b hb (hp hz)

end FreshFor

end Bindings

theorem avoidCapture_of_caughtNames {bindings : Bindings} {p : Pattern}
    (h : caughtNames bindings p = []) (body : Expr) : avoidCapture bindings p body = (p, body) := by
  rw [caughtNames] at h
  simp only [avoidCapture, h, List.isEmpty_nil, if_true]

mutual

/-- Substituting names that are not mentioned is renaming. -/
theorem substitute_ofNames {names : List (String × String)} {e : Expr}
    (h : ∀ b ∈ names, b.2 ∉ e.mentioned) : e.substitute (.ofNames names) = e.rename names := by
  cases e with
  | blank | const => rw [substitute, rename]
  | object name =>
      rw [substitute, rename, Bindings.lookup_ofNames]
      cases names.lookup name <;> rfl
  | operation name args => rw [substitute, rename, substituteList_ofNames h]
  | matching scrutinee cases =>
      rw [substitute, rename, substitute_ofNames fun b hb hmem => h b hb (List.mem_append_left _ hmem),
        substituteCases_ofNames fun b hb hmem => h b hb (List.mem_append_right _ hmem)]

theorem substituteList_ofNames {names : List (String × String)} {es : List Expr}
    (h : ∀ b ∈ names, b.2 ∉ mentionedList es) :
    substituteList (.ofNames names) es = renameList names es := by
  cases es with
  | nil => rw [substituteList, renameList]
  | cons e es =>
      rw [substituteList, renameList,
        substitute_ofNames fun b hb hmem => h b hb (List.mem_append_left _ hmem),
        substituteList_ofNames fun b hb hmem => h b hb (List.mem_append_right _ hmem)]

theorem substituteCases_ofNames {names : List (String × String)} {cases : List (Pattern × Expr)}
    (h : ∀ b ∈ names, b.2 ∉ mentionedCases cases) :
    substituteCases (.ofNames names) cases = renameCases names cases := by
  match cases with
  | [] => rw [substituteCases, renameCases]
  | (p, body) :: rest =>
      have hfresh : (Bindings.ofNames names).FreshFor (mentionedCases ((p, body) :: rest)) :=
        ⟨names, rfl, h⟩
      have hvars : p.vars ⊆ mentionedCases ((p, body) :: rest) := fun z hz =>
        List.mem_append_left _ (List.mem_append_left _ hz)
      have hinner := avoidCapture_of_caughtNames ((hfresh.without p.vars).caughtNames_eq_nil hvars) body
      rw [substituteCases, renameCases]
      dsimp only
      rw [hinner, Bindings.without_ofNames, substitute_ofNames fun b hb hmem =>
          h b (List.mem_filter.1 hb).1 (List.mem_append_left _ (List.mem_append_right _ hmem)),
        substituteCases_ofNames fun b hb hmem => h b hb (List.mem_append_right _ hmem)]

end

theorem substitute_nil (e : Expr) : e.substitute [] = e := by
  have hnone : ∀ b ∈ ([] : List (String × String)), b.2 ∉ e.mentioned := fun _ hb =>
    absurd hb List.not_mem_nil
  exact (substitute_ofNames hnone).trans (rename_nil e)

theorem newNames_fresh {bindings : Bindings} {p : Pattern} {body : Expr} {b : String × String}
    (h : b ∈ newNames bindings p body) : b.2 ∉ body.mentioned := fun hmem =>
  notMem_of_mem_freshNames h (by simp [hmem])

namespace Replacing

def answer (p : Replacing) : Expr := p.expr.substitute p.bindings

/-- The bindings put other names for names, none of which is mentioned in the expression. -/
def FreshNames (p : Replacing) : Prop := p.bindings.FreshFor p.expr.mentioned

/-- Fewer nodes, and new names only where there have been new names only. -/
structure Smaller (q p : Replacing) : Prop where
  nodes : q.expr.nodes < p.expr.nodes
  fresh : p.FreshNames → q.FreshNames

theorem smaller_wellFounded : WellFounded Smaller :=
  Subrelation.wf (fun h => h.nodes) (measure fun p : Replacing => p.expr.nodes).wf

/-- Some variable of a case of the expression catches a name. -/
def Catches (p : Replacing) : Prop :=
  ∃ scrutinee cases, p.expr = .matching scrutinee cases ∧
    ∃ c ∈ cases, caughtNames (p.bindings.without c.1.vars) c.1 ≠ []

end Replacing

theorem vars_subset_mentionedCases {cases : List (Pattern × Expr)} {c : Pattern × Expr}
    (h : c ∈ cases) : c.1.vars ⊆ mentionedCases cases := by
  induction cases with
  | nil => cases h
  | cons first rest ih =>
      rcases List.mem_cons.1 h with rfl | h
      · exact fun z hz => List.mem_append_left _ (List.mem_append_left _ hz)
      · exact fun z hz => List.mem_append_right _ (ih h hz)

theorem Replacing.FreshNames.not_catches {p : Replacing} (h : p.FreshNames) : ¬p.Catches := by
  rintro ⟨scrutinee, cases, heq, c, hc, hcaught⟩
  refine hcaught ((Bindings.FreshFor.without h c.1.vars).caughtNames_eq_nil ?_)
  rw [heq]
  exact fun z hz => List.mem_append_right _ (vars_subset_mentionedCases hc hz)

section

variable {α : Type} {p : Replacing}

/-- The specification of the calls that are made for the problem `p`. -/
abbrev Substituting (p : Replacing) (Q : α → Prop) : SubstituteTree α → Prop :=
  CallTree.Yields (fun q => q.expr.isWhole = true ∧ q.Smaller p) (fun q r => r = q.answer) Q

theorem substituting_askList {bindings : Bindings} {es : List Expr} (hes : isWholeList es = true)
    (hnodes : (partsList es).length < p.expr.nodes)
    (hfresh : p.FreshNames → bindings.FreshFor (mentionedList es)) :
    Substituting p (· = substituteList bindings es) (askList bindings es) := by
  induction es with
  | nil =>
      rw [substituteList]
      exact CallTree.yields_pure.2 rfl
  | cons e es ih =>
      rw [isWholeList, Bool.and_eq_true] at hes
      rw [partsList, List.length_append] at hnodes
      rw [substituteList]
      have he : e.nodes < p.expr.nodes := by
        rw [nodes]
        omega
      refine CallTree.yields_bind.2 (CallTree.yields_ask.2
        ⟨⟨hes.1, he, fun h => (hfresh h).mono (List.subset_append_left ..)⟩, ?_⟩)
      rintro _ rfl
      refine (ih hes.2 (by omega) fun h => (hfresh h).mono (List.subset_append_right ..)).bind ?_
      rintro _ rfl
      exact CallTree.yields_pure.2 rfl

theorem substituting_prepare {bindings : Bindings} {pattern : Pattern} {body : Expr}
    (hbody : body.isWhole = true) (hnodes : body.nodes < p.expr.nodes) :
    Substituting p (· = avoidCapture bindings pattern body) (prepare bindings pattern body) := by
  unfold prepare
  split
  case isTrue h =>
    rw [avoidCapture_of_caughtNames (List.isEmpty_iff.1 h)]
    exact CallTree.yields_pure.2 rfl
  case isFalse h =>
    have hfresh : Replacing.FreshNames ⟨.ofNames (newNames bindings pattern body), body⟩ :=
      ⟨_, rfl, fun _ => newNames_fresh⟩
    refine CallTree.yields_bind.2 (CallTree.yields_ask.2 ⟨⟨hbody, hnodes, fun _ => hfresh⟩, ?_⟩)
    rintro _ rfl
    refine CallTree.yields_pure.2 ?_
    rw [Replacing.answer, substitute_ofNames fun _ => newNames_fresh]
    exact (if_neg h).symm

theorem substituting_askCases {bindings : Bindings} {cases : List (Pattern × Expr)}
    (hcases : isWholeCases cases = true) (hnodes : (partsCases cases).length < p.expr.nodes)
    (hfresh : p.FreshNames → bindings.FreshFor (mentionedCases cases)) :
    Substituting p (· = substituteCases bindings cases) (askCases bindings cases) := by
  induction cases with
  | nil =>
      rw [substituteCases]
      exact CallTree.yields_pure.2 rfl
  | cons c rest ih =>
      obtain ⟨pattern, body⟩ := c
      rw [isWholeCases, Bool.and_eq_true] at hcases
      rw [partsCases, List.length_append] at hnodes
      rw [substituteCases]
      have hbody : body.nodes < p.expr.nodes := by
        rw [nodes]
        omega
      refine (substituting_prepare hcases.1 hbody).bind ?_
      rintro _ rfl
      have hsmaller : Replacing.Smaller ⟨bindings.without pattern.vars,
          (avoidCapture (bindings.without pattern.vars) pattern body).2⟩ p := by
        refine ⟨?_, fun h => ?_⟩
        · dsimp only
          rwa [nodes_avoidCapture]
        · have hinner := (hfresh h).without pattern.vars
          have hvars := vars_subset_mentionedCases (List.mem_cons_self (a := (pattern, body)) (l := rest))
          rw [avoidCapture_of_caughtNames (hinner.caughtNames_eq_nil hvars)]
          exact hinner.mono fun z hz => List.mem_append_left _ (List.mem_append_right _ hz)
      have hwhole : (avoidCapture (bindings.without pattern.vars) pattern body).2.isWhole = true := by
        rw [isWhole_avoidCapture, hcases.1]
      refine CallTree.yields_bind.2 (CallTree.yields_ask.2 ⟨⟨hwhole, hsmaller⟩, ?_⟩)
      rintro _ rfl
      refine (ih hcases.2 (by omega) fun h => (hfresh h).mono (List.subset_append_right ..)).bind ?_
      rintro _ rfl
      exact CallTree.yields_pure.2 rfl

end

theorem substitution_meets : substitution.Meets (fun p => p.expr.isWhole = true)
    (fun p r => r = p.answer) Replacing.Smaller := by
  rintro ⟨bindings, e⟩ he
  change Substituting _ (· = _) _
  cases bindings with
  | nil => exact CallTree.yields_pure.2 (substitute_nil e).symm
  | cons b bindings =>
      cases e with
      | blank => cases he
      | const value | object name =>
          refine CallTree.yields_pure.2 ?_
          rw [Replacing.answer, substitute]
      | operation name args =>
          refine (substituting_askList (p := ⟨b :: bindings, .operation name args⟩) he
            (Nat.lt_succ_self _) fun h => h).bind ?_
          rintro _ rfl
          refine CallTree.yields_pure.2 ?_
          rw [Replacing.answer, substitute]
      | matching scrutinee cases =>
          simp only [isWhole, Bool.and_eq_true] at he
          have hnodes : (matching scrutinee cases).nodes =
              scrutinee.nodes + (partsCases cases).length + 1 := by
            simp only [nodes, parts, List.cons_append, List.length_cons, List.length_append]
          refine (substituting_askCases he.2 (by dsimp only; omega) fun h =>
            Bindings.FreshFor.mono h (List.subset_append_right ..)).bind ?_
          rintro _ rfl
          refine CallTree.yields_bind.2 (CallTree.yields_ask.2 ⟨⟨he.1, by dsimp only; omega, fun h =>
            Bindings.FreshFor.mono h (List.subset_append_left ..)⟩, ?_⟩)
          rintro _ rfl
          refine CallTree.yields_pure.2 ?_
          rw [Replacing.answer, Replacing.answer, substitute]

theorem fresh_of_reaches {p q : Replacing} (hp : p.expr.isWhole = true) (hfresh : p.FreshNames)
    (h : substitution.Reaches p q) : q.FreshNames := by
  induction h with
  | refl => exact hfresh
  | tail hreaches hcall ih =>
      have hwhole := substitution_meets.of_reaches hp hreaches
      exact (substitution_meets.of_calls hwhole hcall).2.fresh ih

/-- Substitution terminates on expressions that lack no part, with what `substitute` says: each call is
on fewer nodes. The substitution that renames the variables of a case with such a body returns the
renamed body, which has as many nodes, and never comes upon a case whose variables it would have to
rename; and the search for a new name ends, with one that is not used. -/
theorem substitution_terminates (bindings : Bindings) {e : Expr} (he : e.isWhole = true) :
    (∀ p, substitution.Reaches ⟨bindings, e⟩ p →
      ∀ q, substitution.Calls p q → q.expr.nodes < p.expr.nodes) ∧
    substitution.Terminates ⟨bindings, e⟩ ∧
    (∀ r, substitution.Returns ⟨bindings, e⟩ r ↔ r = e.substitute bindings) ∧
    (∀ (inner : Bindings) (p : Pattern),
      let names := newNames inner p e
      (∀ r, substitution.Returns ⟨.ofNames names, e⟩ r ↔ r = e.rename names) ∧
      (e.rename names).nodes = e.nodes ∧
      ∀ q, substitution.Reaches ⟨.ofNames names, e⟩ q → ¬q.Catches) ∧
    ∀ (name : String) (used : List String), (trying name used).Terminates 1 ∧
      (∀ fresh, (trying name used).Returns 1 fresh ↔ fresh = freshName name used) ∧
      freshName name used ∉ used := by
  have hmeets := substitution_meets
  refine ⟨fun p hp q hq => ?_, hmeets.terminates Replacing.smaller_wellFounded he,
    fun _ => hmeets.returns_iff Replacing.smaller_wellFounded he, fun inner p => ⟨fun r => ?_,
      nodes_rename _ e, fun q hq => ?_⟩, fun name used => ?_⟩
  · exact (hmeets.of_calls (hmeets.of_reaches he hp) hq).2.nodes
  · rw [← substitute_ofNames fun _ => newNames_fresh]
    exact hmeets.returns_iff (p := ⟨.ofNames (newNames inner p e), e⟩) Replacing.smaller_wellFounded he
  · exact (fresh_of_reaches he ⟨_, rfl, fun _ => newNames_fresh⟩ hq).not_catches
  · have htrying := trying_meets name used
    have hwf := increasing_wellFounded (used.length + 1)
    have hstart : 1 ≤ 1 ∧ ∀ j, 1 ≤ j → j < 1 → name ++ toString j ∈ used :=
      ⟨le_rfl, fun j hj hlt => by omega⟩
    exact ⟨htrying.terminates hwf hstart, fun _ => htrying.returns_iff hwf hstart,
      freshName_notMem name used⟩

theorem substitution_terminates_caught :
    let e : Expr := .matching (.object "x") [(.constructor "Some" [.var "y"],
      .operation "f" [.object "y", .object "z"])]
    let bindings : Bindings := [("z", .object "y")]
    e.isWhole = true ∧ substitution.Terminates ⟨bindings, e⟩ ∧
      substitution.Returns ⟨bindings, e⟩ (.matching (.object "x") [(.constructor "Some" [.var "y1"],
        .operation "f" [.object "y1", .object "y"])]) := by
  intro e bindings
  have h := substitution_terminates bindings (e := e) rfl
  exact ⟨rfl, h.2.1, (h.2.2.1 _).2 (by cbv)⟩

end Formulary.Expr
