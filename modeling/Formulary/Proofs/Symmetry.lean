import Formulary.Proofs.Renaming
import Formulary.Proofs.Unifiers

namespace Formulary

theorem exists_perm_extending {V : Finset Int} {p : Int → Prop} {f : Int → Int}
    (hmaps : ∀ x ∈ V, p x → f x ∈ V)
    (hinjective : ∀ x ∈ V, p x → ∀ y ∈ V, p y → f x = f y → x = y) :
    ∃ ρ : Equiv.Perm Int, (∀ x ∈ V, p x → ρ x = f x) ∧ ∀ x ∉ V, ρ x = x := by
  classical
  obtain ⟨g, hg⟩ := Finset.exists_equiv_extend_of_card_eq (α := V) (t := V) (by simp)
    (s := Finset.univ.filter fun x => p x) (f := fun x => f x)
    (by
      intro y hy
      obtain ⟨x, hx, rfl⟩ := Finset.mem_image.1 hy
      exact hmaps x x.2 (Finset.mem_filter.1 hx).2)
    (by
      intro x hx y hy heq
      exact Subtype.ext (hinjective x x.2 (by simpa using hx) y y.2 (by simpa using hy) heq))
  refine ⟨Equiv.Perm.ofSubtype g, fun x hx hpx => ?_, fun x hx => ?_⟩
  · rw [Equiv.Perm.ofSubtype_apply_of_mem (p := (· ∈ V)) g hx]
    exact hg ⟨x, hx⟩ (by simpa using hpx)
  · exact Equiv.Perm.ofSubtype_apply_of_not_mem (p := (· ∈ V)) g hx

theorem unifies_turn (θ : Int → Ty) (eqs : List (Ty × Ty)) (a b : Ty) :
    Unifies θ (eqs ++ [(b, a)]) ↔ Unifies θ (eqs ++ [(a, b)]) := by
  simp only [unifies_append, unifies_cons, unifies_nil, and_true]
  exact and_congr_right fun _ => eq_comm

namespace Subst

variable {vs vs' : List Int} {eqs : List (Ty × Ty)} {s s' : Subst}

theorem MostGeneral.exists_image_eq_var (h : MostGeneral vs eqs s) (h' : MostGeneral vs' eqs s')
    {y : Int} (hy : s.image y = .var y) : ∃ z, s'.image y = .var z ∧ s.image z = .var y := by
  have hback : (s'.image y).bind s.image = .var y := by
    rw [h'.general s.image h.unifies y, hy]
  exact Ty.eq_var_of_bind_eq_var hback

theorem MostGeneral.exists_rename (h : MostGeneral vs eqs s) (h' : MostGeneral vs' eqs s') :
    ∃ ρ : Equiv.Perm Int, ∀ t : Ty, t.isMono = true → s'.apply t = (s.apply t).rename ρ := by
  have hwide : MostGeneral (vs ++ vs') eqs s := h.mono_vars fun x hx => List.mem_append.2 (.inl hx)
  have hwide' : MostGeneral (vs ++ vs') eqs s' := h'.mono_vars fun x hx => List.mem_append.2 (.inr hx)
  have hexists : ∀ y, ∃ z, s.image y = .var y → s'.image y = .var z ∧ s.image z = .var y := by
    intro y
    by_cases hy : s.image y = .var y
    · obtain ⟨z, hz⟩ := h.exists_image_eq_var h' hy
      exact ⟨z, fun _ => hz⟩
    · exact ⟨y, fun hfixed => absurd hfixed hy⟩
  choose f hf using hexists
  obtain ⟨ρ, hρ, hrest⟩ := exists_perm_extending (V := (vs ++ vs').toFinset)
    (p := fun y => s.image y = .var y) (f := f)
    (by
      intro y hy hfixed
      rw [List.mem_toFinset] at hy ⊢
      refine hwide'.confined.inside y hy (f y) ?_
      rw [(hf y hfixed).1]
      simp [Ty.freeOccurrences])
    (by
      intro x _ hx y _ hy heq
      have hsame : Ty.var x = Ty.var y := by rw [← (hf x hx).2, heq, (hf y hy).2]
      exact Ty.var.inj hsame)
  have hfixed : ∀ y, s.image y = .var y → s'.image y = .var (ρ y) := by
    intro y hy
    by_cases hmem : y ∈ (vs ++ vs').toFinset
    · rw [hρ y hmem hy]
      exact (hf y hy).1
    · rw [hrest y hmem]
      exact hwide'.confined.outside y (by simpa using hmem)
  have himage : ∀ x, s'.image x = (s.image x).rename ρ := by
    intro x
    -- What is left in the range of the first is left alone by it.
    calc s'.image x = (s.image x).bind s'.image := (h.general s'.image h'.unifies x).symm
      _ = (s.image x).bind fun y => (Ty.var y).rename ρ :=
        Ty.bind_congr fun y hy => hfixed y (h.settled x y hy)
      _ = ((s.image x).bind .var).rename ρ :=
        (Ty.rename_bind_of_isOver ρ .var (Ty.isOver_of_isMono (h.mono x))).symm
      _ = (s.image x).rename ρ := by rw [Ty.bind_var]
  refine ⟨ρ, fun t ht => ?_⟩
  rw [apply_eq_bind, apply_eq_bind, Ty.rename_bind_of_isOver ρ s.image (Ty.isOver_of_isMono ht)]
  exact Ty.bind_congr fun x _ => himage x

end Subst

namespace Ty

/-- The kind of the error that unification ends with, if it does. -/
def failure {α : Type} : Except UnifyError α → Option FaultKind
  | .ok _ => none
  | .error e => some e.kind

theorem failure_eq_none {α : Type} {result : Except UnifyError α} (h : failure result = none) :
    ∃ s, result = .ok s := by
  cases result with
  | ok s => exact ⟨s, rfl⟩
  | error e => cases h

theorem failure_eq_some {α : Type} {result : Except UnifyError α} {kind : FaultKind}
    (h : failure result = some kind) : ∃ e, result = .error e ∧ e.kind = kind := by
  cases result with
  | ok s => cases h
  | error e => exact ⟨e, rfl, Option.some.inj h⟩

theorem kind_rename (f : Int → Int) (e : UnifyError) : (e.rename f).kind = e.kind := by
  cases e <;> rfl

theorem failure_unifyWithin_rename (ρ : Equiv.Perm Int) {a b : Ty} (ha : a.isMono = true)
    (hb : b.isMono = true) :
    failure (unifyWithin (a.rename ρ) (b.rename ρ)) = failure (unifyWithin a b) := by
  have h := (unifyWithin_renamed_both (ρ := ρ) (hereditary_isOver fun _ _ => True)).1 a b
    (isOver_of_isMono ha) (isOver_of_isMono hb)
  cases hresult : unifyWithin a b with
  | ok s =>
      rw [hresult] at h
      obtain ⟨s', hs', -, -⟩ := h.exists_ok
      rw [hs', failure, failure]
  | error e =>
      rw [hresult] at h
      rw [h.eq_error, failure, failure, kind_rename]

theorem failure_bindVar_congr {vs vs' : List Int} {id : Int} {t : Ty} {hid : id ∈ vs}
    {ht : ∀ y ∈ t.freeOccurrences, y ∈ vs} {hid' : id ∈ vs'}
    {ht' : ∀ y ∈ t.freeOccurrences, y ∈ vs'} :
    failure (bindVar vs id t hid ht) = failure (bindVar vs' id t hid' ht') := by
  cases t with
  | var x => simp only [bindVar]; split <;> rfl
  | _ => simp only [bindVar]; split <;> rfl

theorem failure_bindVar_var {vs : List Int} {id x : Int} {hid : id ∈ vs}
    {hx : ∀ y ∈ (Ty.var x).freeOccurrences, y ∈ vs} :
    failure (bindVar vs id (.var x) hid hx) = none := by
  simp only [bindVar]
  split <;> rfl

theorem failure_unifyAtoms {vs : List Int} {a b : Ty} {equal : Bool} :
    failure (unifyAtoms vs a b equal) =
      if equal then none else some .unificationFailure := by
  unfold unifyAtoms
  split <;> rfl

theorem failure_unifyWithin_var (x : Int) (t : Ty) :
    failure (unifyWithin t (.var x)) = failure (unifyWithin (.var x) t) := by
  by_cases hvar : ∃ y, t = .var y
  · obtain ⟨y, rfl⟩ := hvar
    rw [unifyWithin, unifyWithin, failure_bindVar_var, failure_bindVar_var]
  · rw [unifyWithin, unifyWithin]
    · exact failure_bindVar_congr
    · exact fun y hy => hvar ⟨y, hy⟩

theorem exists_turned {a b : Ty} {s : Unifier (pairVars a b)} (ha : a.isMono = true)
    (hb : b.isMono = true) (hs : unifyWithin a b = .ok s)
    (h : failure (unifyWithin b a) = failure (unifyWithin a b)) :
    ∃ s', unifyWithin b a = .ok s' ∧ s.1.MostGeneral (pairVars a b) [(a, b)] ∧
      s'.1.MostGeneral (pairVars b a) [(a, b)] := by
  rw [hs] at h
  obtain ⟨s', hs'⟩ := failure_eq_none h
  have hdecides := unifyWithin_decides ha hb
  have hdecides' := unifyWithin_decides hb ha
  rw [hs] at hdecides
  rw [hs'] at hdecides'
  exact ⟨s', hs', hdecides, Subst.MostGeneral.congr hdecides' fun θ => unifies_turn θ [] a b⟩

theorem failure_unifyWithin_turn {vs vs' : List Int} {eqs : List (Ty × Ty)} {s s' : Subst} {a b : Ty}
    (hs : s.MostGeneral vs eqs) (hs' : s'.MostGeneral vs' eqs) (ha : a.isMono = true)
    (hb : b.isMono = true)
    (h : failure (unifyWithin (s.apply b) (s.apply a)) = failure (unifyWithin (s.apply a) (s.apply b))) :
    failure (unifyWithin (s'.apply b) (s'.apply a)) =
      failure (unifyWithin (s.apply a) (s.apply b)) := by
  obtain ⟨ρ, hρ⟩ := hs.exists_rename hs'
  rw [hρ a ha, hρ b hb, failure_unifyWithin_rename ρ (Subst.isMono_apply hs.mono hb)
    (Subst.isMono_apply hs.mono ha)]
  exact h

theorem failure_unifyWithin_comm_both :
    (∀ a b : Ty, a.isMono = true → b.isMono = true →
      failure (unifyWithin b a) = failure (unifyWithin a b)) ∧
    ∀ (vs : List Int) (s : Unifier vs) (as bs : List Ty)
      (has : ∀ x ∈ freeOccurrencesList as, x ∈ vs) (hbs : ∀ x ∈ freeOccurrencesList bs, x ∈ vs),
      isMonoList as = true → isMonoList bs = true → as.length = bs.length →
      ∀ eqs, MonoEquations eqs → s.1.MostGeneral vs eqs →
      ∀ vs' (s' : Unifier vs') has' hbs', s'.1.MostGeneral vs' eqs →
        failure (unifyListWithin vs' s' bs as has' hbs') =
          failure (unifyListWithin vs s as bs has hbs) := by
  refine unifyWithin.mutual_induct
    (fun a b => a.isMono = true → b.isMono = true →
      failure (unifyWithin b a) = failure (unifyWithin a b))
    (fun vs s as bs has hbs => isMonoList as = true → isMonoList bs = true →
      as.length = bs.length → ∀ eqs, MonoEquations eqs → s.1.MostGeneral vs eqs →
      ∀ vs' (s' : Unifier vs') has' hbs', s'.1.MostGeneral vs' eqs →
        failure (unifyListWithin vs' s' bs as has' hbs') =
          failure (unifyListWithin vs s as bs has hbs))
    ?blank ?varLeft ?varRight ?polyLeft ?polyRight ?prim ?nat ?tag ?heads ?lengths ?data
    ?fnDomain ?fnCodomain ?fn ?other ?listError ?listCons ?listEnd
  case blank => simp [isMono]
  case varLeft =>
    intro id b _ _
    exact failure_unifyWithin_var id b
  case varRight =>
    intro a id _ _ _
    exact (failure_unifyWithin_var id a).symm
  case polyLeft => simp [isMono]
  case polyRight => simp [isMono]
  case prim =>
    intro k k' _ _
    rw [unifyWithin, unifyWithin, failure_unifyAtoms, failure_unifyAtoms]
    simp only [eq_comm]
  case nat =>
    intro n n' _ _
    rw [unifyWithin, unifyWithin, failure_unifyAtoms, failure_unifyAtoms]
    simp only [eq_comm]
  case tag =>
    intro t t' _ _
    rw [unifyWithin, unifyWithin, failure_unifyAtoms, failure_unifyAtoms]
    simp only [eq_comm]
  case heads =>
    intro n c as n' c' bs hne _ _
    have hne' : n' ≠ n ∨ c' ≠ c := hne.imp Ne.symm Ne.symm
    rw [unifyWithin, unifyWithin, if_pos hne, if_pos hne']
    rfl
  case lengths =>
    intro n c as n' c' bs heads hlen _ _
    have heads' : ¬(n' ≠ n ∨ c' ≠ c) := fun h => heads (h.imp Ne.symm Ne.symm)
    rw [unifyWithin, unifyWithin, if_neg heads, if_neg heads', if_pos hlen, if_pos (Ne.symm hlen)]
    rfl
  case data =>
    intro n c as n' c' bs heads hlen ih ha hb
    have heads' : ¬(n' ≠ n ∨ c' ≠ c) := fun h => heads (h.imp Ne.symm Ne.symm)
    have hlen' : ¬bs.length ≠ as.length := fun h => hlen (Ne.symm h)
    rw [unifyWithin, unifyWithin, if_neg heads, if_neg heads', if_neg hlen, if_neg hlen']
    exact ih ha hb (Decidable.of_not_not hlen) [] (by simp [MonoEquations])
      (Subst.mostGeneral_empty _) _ _ _ _ (Subst.mostGeneral_empty _)
  case fnDomain =>
    intro a₁ a₂ b₁ b₂ e he ih ha hb
    simp only [isMono, Bool.and_eq_true] at ha hb
    have hturned := ih ha.1 hb.1
    rw [he] at hturned
    obtain ⟨e', he', hkind⟩ := failure_eq_some hturned
    rw [unifyWithin, unifyWithin, he, he']
    exact congrArg some hkind
  case fnCodomain =>
    intro a₁ a₂ b₁ b₂ s₁ hs₁ _ e he ih₁ ih₂ ha hb
    simp only [isMono, Bool.and_eq_true] at ha hb
    obtain ⟨s₁', hs₁', hmost, hmost'⟩ := exists_turned ha.1 hb.1 hs₁ (ih₁ ha.1 hb.1)
    have hsecond := failure_unifyWithin_turn hmost hmost' ha.2 hb.2
      (ih₂ (Subst.isMono_apply hmost.mono ha.2) (Subst.isMono_apply hmost.mono hb.2))
    rw [he] at hsecond
    obtain ⟨e', he', hkind⟩ := failure_eq_some hsecond
    simp only [unifyWithin, hs₁, hs₁', he, he']
    exact congrArg some hkind
  case fn =>
    intro a₁ a₂ b₁ b₂ s₁ hs₁ _ s₂ hs₂ ih₁ ih₂ ha hb
    simp only [isMono, Bool.and_eq_true] at ha hb
    obtain ⟨s₁', hs₁', hmost, hmost'⟩ := exists_turned ha.1 hb.1 hs₁ (ih₁ ha.1 hb.1)
    have hsecond := failure_unifyWithin_turn hmost hmost' ha.2 hb.2
      (ih₂ (Subst.isMono_apply hmost.mono ha.2) (Subst.isMono_apply hmost.mono hb.2))
    rw [hs₂] at hsecond
    obtain ⟨s₂', hs₂'⟩ := failure_eq_none hsecond
    simp only [unifyWithin, hs₁, hs₁', hs₂, hs₂', failure]
  case other =>
    intro a b hblank hvar hvar' hpoly hpoly' hprim hnat htag hdata hfn _ _
    have hturned : unifyWithin b a = .error (.mismatch b a) := by
      rw [unifyWithin]
      · exact hvar'
      · exact hpoly'
      · exact hvar
      · exact hpoly
      · exact fun h h' => hblank h' h
      · exact fun k k' h h' => hprim _ _ h' h
      · exact fun n n' h h' => hnat _ _ h' h
      · exact fun t t' h h' => htag _ _ h' h
      · exact fun n c as n' c' bs h h' => hdata _ _ _ _ _ _ h' h
      · exact fun a₁ a₂ b₁ b₂ h h' => hfn _ _ _ _ h' h
    rw [hturned, unifyWithin]
    · rfl
    all_goals assumption
  case listError =>
    intro vs s a as b bs has hbs ha hb e he _ _ ih hmono hmono' hlen eqs heqs hs vs' s' has' hbs' hs'
    simp only [isMonoList, Bool.and_eq_true] at hmono hmono'
    have hturned := failure_unifyWithin_turn hs hs' hmono.1 hmono'.1
      (ih (Subst.isMono_apply hs.mono hmono.1) (Subst.isMono_apply hs.mono hmono'.1))
    rw [he] at hturned
    obtain ⟨e', he', hkind⟩ := failure_eq_some hturned
    simp only [unifyListWithin, he, he']
    exact congrArg some hkind
  case listCons =>
    intro vs s a as b bs has hbs ha hb next hnext _ _ ih ihs hmono hmono' hlen eqs heqs hs
      vs' s' has' hbs' hs'
    simp only [isMonoList, Bool.and_eq_true] at hmono hmono'
    have hturned := failure_unifyWithin_turn hs hs' hmono.1 hmono'.1
      (ih (Subst.isMono_apply hs.mono hmono.1) (Subst.isMono_apply hs.mono hmono'.1))
    rw [hnext] at hturned
    obtain ⟨next', hnext'⟩ := failure_eq_none hturned
    have hdecides := unifyWithin_decides (Subst.isMono_apply hs.mono hmono.1)
      (Subst.isMono_apply hs.mono hmono'.1)
    have hdecides' := unifyWithin_decides (Subst.isMono_apply hs'.mono hmono'.1)
      (Subst.isMono_apply hs'.mono hmono.1)
    rw [hnext] at hdecides
    rw [hnext'] at hdecides'
    have hboth := hs.compose heqs hmono.1 hmono'.1
      (by simp +contextual [pairVars, or_imp, ha, hb]) hdecides
    have hboth' := (hs'.compose heqs hmono'.1 hmono.1
      (by
        intro x hx
        rcases List.mem_append.1 hx with hx | hx
        · exact has' x (by simp [freeOccurrencesList, hx])
        · exact hbs' x (by simp [freeOccurrencesList, hx]))
      hdecides').congr fun θ => unifies_turn θ eqs a b
    have hmonoBoth : MonoEquations (eqs ++ [(a, b)]) := by
      intro p hp
      rcases List.mem_append.1 hp with hp | hp
      · exact heqs p hp
      · rw [List.mem_singleton] at hp
        exact hp ▸ ⟨hmono.1, hmono'.1⟩
    simp only [unifyListWithin, hnext, hnext']
    exact ihs hmono.2 hmono'.2 (by simpa using hlen) _ hmonoBoth hboth _ _ _ _ hboth'
  case listEnd =>
    intro vs s as bs has hbs _ _ hends hmono hmono' hlen eqs heqs hs vs' s' has' hbs' hs'
    cases as with
    | nil =>
        obtain rfl := List.eq_nil_of_length_eq_zero hlen.symm
        simp only [unifyListWithin, failure]
    | cons a as =>
        cases bs with
        | nil => cases hlen
        | cons b bs => exact (hends a as b bs has hbs rfl rfl HEq.rfl HEq.rfl).elim

/-- Unification is symmetric: for either order of two monotypes there are unifiers, and they differ by
a renaming of variables, or for either order there is none, for the same kind of reason. -/
theorem unify_symmetric {a b : Ty} (ha : a.isMono = true) (hb : b.isMono = true) :
    (∃ (s₁ s₂ : Subst) (ρ : Equiv.Perm Int), unify a b = .ok s₁ ∧ unify b a = .ok s₂ ∧
      s₁.apply a = s₁.apply b ∧ s₂.apply b = s₂.apply a ∧
      ∀ t : Ty, t.isMono = true → s₂.apply t = (s₁.apply t).rename ρ) ∨
    ∃ e₁ e₂ : UnifyError, unify a b = .error e₁ ∧ unify b a = .error e₂ ∧ e₁.kind = e₂.kind ∧
      e₁.kind ∈ [FaultKind.unificationFailure, .arityMismatch, .occursCheck] := by
  have hcomm := failure_unifyWithin_comm_both.1 a b ha hb
  cases hresult : unifyWithin a b with
  | ok s =>
      obtain ⟨s', hs', hmost, hmost'⟩ := exists_turned ha hb hresult hcomm
      obtain ⟨ρ, hρ⟩ := hmost.exists_rename hmost'
      have hequal := (unifies_cons.1 hmost.unifies).1
      have hequal' := (unifies_cons.1 hmost'.unifies).1
      rw [← Subst.apply_eq_bind, ← Subst.apply_eq_bind] at hequal hequal'
      exact .inl ⟨s.1, s'.1, ρ, by rw [unify, hresult]; rfl, by rw [unify, hs']; rfl, hequal,
        hequal'.symm, hρ⟩
  | error e =>
      rw [hresult] at hcomm
      obtain ⟨e', he', hkind⟩ := failure_eq_some hcomm
      have hunify : unify a b = .error e := by rw [unify, hresult]; rfl
      exact .inr ⟨e, e', hunify, by rw [unify, he']; rfl, hkind.symm,
        UnifyError.kind_mem_of_ne_quantified (ne_quantified_of_unify ha hb hunify)⟩

theorem unify_symmetric_variables :
    ((∃ (s₁ s₂ : Subst) (ρ : Equiv.Perm Int), unify (.var 0) (.var 1) = .ok s₁ ∧
      unify (.var 1) (.var 0) = .ok s₂ ∧ s₁.apply (.var 0) = s₁.apply (.var 1) ∧
      s₂.apply (.var 1) = s₂.apply (.var 0) ∧
      ∀ t : Ty, t.isMono = true → s₂.apply t = (s₁.apply t).rename ρ) ∨
    ∃ e₁ e₂ : UnifyError, unify (.var 0) (.var 1) = .error e₁ ∧ unify (.var 1) (.var 0) = .error e₂ ∧
      e₁.kind = e₂.kind ∧
      e₁.kind ∈ [FaultKind.unificationFailure, .arityMismatch, .occursCheck]) ∧
    unify (.var 0) (.var 1) = .ok (Subst.singleton 0 (.var 1)) ∧
    unify (.var 1) (.var 0) = .ok (Subst.singleton 1 (.var 0)) :=
  ⟨unify_symmetric rfl rfl, by cbv, by cbv⟩

end Ty

end Formulary
