import Formulary.Fault
import Formulary.Proofs.Unification

namespace Formulary

/-- The variables that occur in equations. -/
def equationVars (eqs : List (Ty × Ty)) : List Int := eqs.flatMap fun p => Ty.pairVars p.1 p.2

theorem mem_equationVars_zip {as bs : List Ty} (hlength : as.length = bs.length) {x : Int}
    (hx : x ∈ Ty.freeOccurrencesList as ++ Ty.freeOccurrencesList bs) :
    x ∈ equationVars (as.zip bs) := by
  induction as generalizing bs with
  | nil =>
      obtain rfl := List.eq_nil_of_length_eq_zero hlength.symm
      exact hx
  | cons a as ih =>
      cases bs with
      | nil => cases hlength
      | cons b bs =>
          have hrest : x ∈ Ty.freeOccurrencesList as ++ Ty.freeOccurrencesList bs →
              x ∈ equationVars (as.zip bs) := ih (Nat.succ.inj hlength)
          simp only [Ty.freeOccurrencesList, equationVars, List.zip_cons_cons, List.flatMap_cons,
            List.mem_append] at hx hrest ⊢
          tauto

namespace Subst

/-- A substitution that makes the sides of equations equal and is idempotent, within the variables of
the equations. -/
structure IsUnifier (s : Subst) (eqs : List (Ty × Ty)) : Prop where
  equal : ∀ p ∈ eqs, s.apply p.1 = s.apply p.2
  idempotent : s.isIdempotent = true
  /-- No variable that is bound occurs in what is put for a variable. -/
  apart : ∀ x t y u, s.get? x = some t → s.get? y = some u → x ∉ u.freeOccurrences
  inside : ∀ x t, s.get? x = some t →
    x ∈ equationVars eqs ∧ ∀ y ∈ t.freeOccurrences, y ∈ equationVars eqs

variable {s : Subst} {vs : List Int} {eqs : List (Ty × Ty)}

/-- What a most general solution binds does not occur in its range. -/
theorem MostGeneral.apart (h : MostGeneral vs eqs s) {x y : Int} {t u : Ty}
    (hx : s.get? x = some t) (hy : s.get? y = some u) : x ∉ u.freeOccurrences := by
  intro hmem
  rw [← image_of_get?_eq_some hy] at hmem
  have hfixed : s.image x = .var x := h.settled y x hmem
  rw [image_of_get?_eq_some hx] at hfixed
  exact h.proper x (hfixed ▸ hx)

theorem MostGeneral.isUnifier (h : MostGeneral vs eqs s)
    (hvars : ∀ x ∈ vs, x ∈ equationVars eqs) : s.IsUnifier eqs where
  equal p hp := by
    rw [apply_eq_bind, apply_eq_bind]
    exact h.unifies p hp
  idempotent := h.settled.isIdempotent h.mono
  apart _ _ _ _ hx hy := h.apart hx hy
  inside x t hx := by
    have hdomain : x ∈ vs := h.domain x t hx
    refine ⟨hvars x hdomain, fun y hy => hvars y (h.confined.inside x hdomain y ?_)⟩
    rwa [image_of_get?_eq_some hx]

theorem MostGeneral.apply_apply (h : MostGeneral vs eqs s) {u : Subst} (hu : Unifies u.image eqs)
    {t : Ty} (ht : t.isQuantifierFree = true) : u.apply (s.apply t) = u.apply t := by
  rw [apply_eq_bind, apply_eq_bind, apply_eq_bind, Ty.bind_bind_of_isQuantifierFree _ _ ht]
  exact Ty.bind_congr fun x _ => h.general u.image hu x

end Subst

theorem UnifyError.kind_mem_of_ne_quantified {e : UnifyError} (h : e ≠ .quantified) :
    e.kind ∈ [FaultKind.unificationFailure, .arityMismatch, .occursCheck] := by
  cases e with
  | mismatch | arity | occurs => simp [UnifyError.kind]
  | quantified => exact absurd rfl h

namespace Ty

/-- A substitution that unification finds for two monotypes, or for two lists of monotypes of one
length, is an idempotent unifier within their variables. -/
theorem isUnifier_of_unify :
    (∀ a b s, a.isMono = true → b.isMono = true → unify a b = .ok s → s.IsUnifier [(a, b)]) ∧
      ∀ as bs s, isMonoList as = true → isMonoList bs = true → as.length = bs.length →
        unifyList as bs = .ok s → s.IsUnifier (as.zip bs) := by
  constructor
  · intro a b s ha hb h
    refine (unify_mostGeneral ha hb h).isUnifier fun x hx => ?_
    simpa [equationVars] using hx
  · intro as bs s has hbs hlength h
    exact (unifyList_mostGeneral has hbs hlength h).isUnifier fun x =>
      mem_equationVars_zip hlength

theorem isUnifier_of_unify_chain :
    ∃ s : Subst, s.entries = [(0, .nat 3), (1, .nat 3)] ∧
      unify (.fn (.var 0) (.var 1)) (.fn (.var 1) (.nat 3)) = .ok s ∧
      s.IsUnifier [(.fn (.var 0) (.var 1), .fn (.var 1) (.nat 3))] ∧
      unifyList [.var 0, .var 1] [.var 1, .nat 3] = .ok s ∧
      s.IsUnifier [(.var 0, .var 1), (.var 1, .nat 3)] := by
  have hpair : unify (.fn (.var 0) (.var 1)) (.fn (.var 1) (.nat 3)) =
      .ok (Subst.compose (Subst.singleton 0 (.var 1)) (Subst.singleton 1 (.nat 3))) := by
    cbv
  have hlist : unifyList [.var 0, .var 1] [.var 1, .nat 3] =
      .ok (Subst.compose (Subst.singleton 0 (.var 1)) (Subst.singleton 1 (.nat 3))) := by
    cbv
  exact ⟨_, rfl, hpair, isUnifier_of_unify.1 _ _ _ rfl rfl hpair, hlist,
    isUnifier_of_unify.2 [.var 0, .var 1] [.var 1, .nat 3] _ rfl rfl rfl hlist⟩

theorem unify_of_mem_freeOccurrences {x : Int} {t : Ty} (ht : t ≠ .var x)
    (hx : x ∈ t.freeOccurrences) :
    unify (.var x) t = .error (.occurs x t) ∧ unify t (.var x) = .error (.occurs x t) := by
  have hoccurs : t.occurs x = true := (occurs_iff_mem x t).2 hx
  have hvar : ∀ y, t ≠ .var y := by
    rintro y rfl
    have hy : x = y := by simpa [freeOccurrences] using hx
    exact ht (by rw [hy])
  cases t with
  | var y => exact absurd rfl (hvar y)
  | blank | prim | nat | tag => simp [freeOccurrences] at hx
  | data | fn | poly => simp [unify, unifyWithin, bindVar, hoccurs, Except.map]

/-- Unification is complete and most general: two monotypes that some substitution makes equal are
unified, and the substitution makes no difference between a type and what the unifier makes of it. So
it fails only where no substitution makes the types equal, and always between a variable and another
type that holds it. -/
theorem unify_general :
    (∀ (a b : Ty) (u : Subst), a.isMono = true → b.isMono = true → u.apply a = u.apply b →
      ∃ s, unify a b = .ok s ∧
        ∀ t : Ty, t.isQuantifierFree = true → u.apply (s.apply t) = u.apply t) ∧
    (∀ (a b : Ty) (e : UnifyError), a.isMono = true → b.isMono = true → unify a b = .error e →
      e.kind ∈ [FaultKind.unificationFailure, .arityMismatch, .occursCheck] ∧
        ∀ u : Subst, u.apply a ≠ u.apply b) ∧
    ∀ (x : Int) (t : Ty), t ≠ .var x → x ∈ t.freeOccurrences →
      unify (.var x) t = .error (.occurs x t) ∧ unify t (.var x) = .error (.occurs x t) := by
  have hcomplete : ∀ (a b : Ty) (u : Subst), a.isMono = true → b.isMono = true →
      u.apply a = u.apply b → ∃ s, unify a b = .ok s := by
    intro a b u ha hb hu
    rw [Subst.apply_eq_bind, Subst.apply_eq_bind] at hu
    exact exists_unify_eq_ok ha hb hu
  refine ⟨?complete, ?fails, fun x t => unify_of_mem_freeOccurrences⟩
  case complete =>
    intro a b u ha hb hu
    obtain ⟨s, hs⟩ := hcomplete a b u ha hb hu
    refine ⟨s, hs, fun t ht => (unify_mostGeneral ha hb hs).apply_apply ?_ ht⟩
    rw [Subst.apply_eq_bind, Subst.apply_eq_bind] at hu
    exact unifies_cons.2 ⟨hu, unifies_nil _⟩
  case fails =>
    intro a b e ha hb he
    refine ⟨UnifyError.kind_mem_of_ne_quantified (ne_quantified_of_unify ha hb he), fun u hu => ?_⟩
    obtain ⟨s, hs⟩ := hcomplete a b u ha hb hu
    cases he.symm.trans hs

theorem unify_general_chain :
    (∃ s, unify (.fn (.var 0) (.var 1)) (.fn (.var 1) (.var 2)) = .ok s ∧
      ∀ t : Ty, t.isQuantifierFree = true →
        (Subst.compose (Subst.singleton 0 (.nat 1))
          (Subst.compose (Subst.singleton 1 (.nat 1)) (Subst.singleton 2 (.nat 1)))).apply
            (s.apply t) =
        (Subst.compose (Subst.singleton 0 (.nat 1))
          (Subst.compose (Subst.singleton 1 (.nat 1)) (Subst.singleton 2 (.nat 1)))).apply t) ∧
    (unify (.nat 1) (.nat 2) = .error (.mismatch (.nat 1) (.nat 2)) ∧
      ∀ u : Subst, u.apply (.nat 1) ≠ u.apply (.nat 2)) ∧
    unify (.data "List" "List" [.var 0]) (.var 0) =
      .error (.occurs 0 (.data "List" "List" [.var 0])) := by
  have hnumbers : unify (.nat 1) (.nat 2) = .error (.mismatch (.nat 1) (.nat 2)) := by cbv
  exact ⟨unify_general.1 _ _ _ rfl rfl (by cbv),
    ⟨hnumbers, (unify_general.2.1 _ _ _ rfl rfl hnumbers).2⟩,
    (unify_general.2.2 0 (.data "List" "List" [.var 0]) (by simp)
      (by simp [freeOccurrences, freeOccurrencesList])).2⟩

end Ty

end Formulary
