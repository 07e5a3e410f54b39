import Formulary.Proofs.Procedures
import Formulary.Ty.Unification

namespace Formulary.Ty

/-- Two types to be made equal, or two lists of types pairwise. -/
inductive Equating where
  | pair (a b : Ty)
  | lists (as bs : List Ty)

namespace Equating

/-- The free variables, as often as they occur. -/
def vars : Equating → List Int
  | .pair a b => pairVars a b
  | .lists as bs => freeOccurrencesList as ++ freeOccurrencesList bs

def size : Equating → Nat
  | .pair a b => a.size + b.size
  | .lists as bs => sizeList as + sizeList bs

/-- A list is only made equal to one of the same length. -/
def Balanced : Equating → Prop
  | .pair _ _ => True
  | .lists as bs => as.length = bs.length

/-- A problem with fewer distinct free variables, or with no more of them and of a smaller size. -/
def Smaller (q p : Equating) : Prop :=
  distinct q.vars < distinct p.vars ∨ distinct q.vars ≤ distinct p.vars ∧ q.size < p.size

theorem smaller_wellFounded : WellFounded Smaller :=
  Subrelation.wf (fun h => measure_lt h)
    (InvImage.wf (fun p : Equating => (distinct p.vars, p.size)) (Prod.lex
      ⟨(· < ·), Nat.lt_wfRel.wf⟩ ⟨(· < ·), Nat.lt_wfRel.wf⟩).wf)

/-- What unification comes to. -/
def answer : Equating → Except UnifyError Subst
  | .pair a b => unify a b
  | .lists as bs => unifyList as bs

end Equating

/-- What is found by binding a variable. -/
def bound (id : Int) (t : Ty) : Except UnifyError Subst :=
  match t with
  | .var id' => .ok (if id' = id then ∅ else .singleton id (.var id'))
  | t => if t.occurs id then .error (.occurs id t) else .ok (.singleton id t)

/-- What is done to make two types equal. -/
abbrev UnifyTree : Type :=
  CallTree Equating (Except UnifyError Subst) (Except UnifyError Subst)

/-- Makes two types equal and goes on with what was found. -/
def equate (a b : Ty) (next : Subst → UnifyTree) : UnifyTree :=
  .call (.pair a b) fun
    | .error e => .done (.error e)
    | .ok s => next s

/-- Makes two types equal under what was found before, and goes on with all that has been found. -/
def equateUnder (s : Subst) (a b : Ty) (next : Subst → UnifyTree) : UnifyTree := do
  let a' ← CallTree.orFault (s.applied? a)
  let b' ← CallTree.orFault (s.applied? b)
  equate a' b' fun found => do next (← CallTree.orFault (s.composed? found))

/-- Makes the elements of two lists equal, applying what was found so far to each pair first. -/
def takePairs (s : Subst) : List Ty → List Ty → UnifyTree
  | [], _ => .done (.ok s)
  | _ :: _, [] => .fault
  | a :: as, b :: bs => equateUnder s a b fun s => takePairs s as bs

/-- Takes two types apart. -/
def takeApart : Ty → Ty → UnifyTree
  | .blank, .blank => .done (.ok ∅)
  | .var id, b => .done (bound id b)
  | a, .var id => .done (bound id a)
  | .poly _ _, _ => .done (.error .quantified)
  | _, .poly _ _ => .done (.error .quantified)
  | .prim k, .prim k' => .done (if k = k' then .ok ∅ else .error (.mismatch (.prim k) (.prim k')))
  | .nat n, .nat n' => .done (if n = n' then .ok ∅ else .error (.mismatch (.nat n) (.nat n')))
  | .tag t, .tag t' => .done (if t = t' then .ok ∅ else .error (.mismatch (.tag t) (.tag t')))
  | .data n c as, .data n' c' bs =>
    if n ≠ n' ∨ c ≠ c' then .done (.error (.mismatch (.data n c as) (.data n' c' bs)))
    else if as.length ≠ bs.length then
      .done (.error (.arity (.data n c as) (.data n' c' bs) c))
    else .call (.lists as bs) .done
  | .fn a₁ a₂, .fn b₁ b₂ =>
    equate a₁ b₁ fun s => equateUnder s a₂ b₂ fun s => .done (.ok s)
  | a, b => .done (.error (.mismatch a b))

open Classical in
/-- Unification. Where types may be kept in one place (`shared`), it may be seen at once that two types
are the same one and that there is nothing to do; otherwise they are taken apart. -/
noncomputable def unification (shared : Prop) : Procedure Equating (Except UnifyError Subst)
  | .pair a b =>
    if shared ∧ a = b then .choice (.done (.ok ∅)) (takeApart a b) else takeApart a b
  | .lists as bs => takePairs ∅ as bs

theorem bindVar_map (vs : List Int) (id : Int) (t : Ty) (hid : id ∈ vs)
    (ht : ∀ y ∈ t.freeOccurrences, y ∈ vs) : (bindVar vs id t hid ht).map (·.1) = bound id t := by
  cases t with
  | var id' =>
      unfold bindVar bound
      dsimp only
      split <;> rfl
  | _ =>
      unfold bindVar bound
      dsimp only
      split <;> rfl

theorem unifyAtoms_map (vs : List Int) (a b : Ty) (equal : Bool) :
    (unifyAtoms vs a b equal).map (·.1) = if equal then .ok ∅ else .error (.mismatch a b) := by
  unfold unifyAtoms
  split <;> rfl

/-- Unification of two lists from what has been found so far. -/
def unifyFrom (s : Subst) : List Ty → List Ty → Except UnifyError Subst
  | a :: as, b :: bs =>
    (unify (s.apply a) (s.apply b)).bind fun next => unifyFrom (s.compose next) as bs
  | _, _ => .ok s

theorem unifyListWithin_map (vs : List Int) (s : Unifier vs) (as bs : List Ty)
    (has : ∀ x ∈ freeOccurrencesList as, x ∈ vs) (hbs : ∀ x ∈ freeOccurrencesList bs, x ∈ vs) :
    (unifyListWithin vs s as bs has hbs).map (·.1) = unifyFrom s.1 as bs := by
  induction as generalizing s bs with
  | nil => simp [unifyListWithin, unifyFrom, Except.map]
  | cons a as ih =>
      cases bs with
      | nil => simp [unifyListWithin, unifyFrom, Except.map]
      | cons b bs =>
          rw [unifyListWithin, unifyFrom, unify]
          cases h : unifyWithin (s.1.apply a) (s.1.apply b) with
          | error e => rfl
          | ok next => exact ih ..

theorem unifyList_eq (as bs : List Ty) : unifyList as bs = unifyFrom ∅ as bs :=
  unifyListWithin_map ..

theorem unify_data {n c : String} {as bs : List Ty} (h : as.length = bs.length) :
    unify (.data n c as) (.data n c bs) = unifyList as bs := by
  rw [unify, unifyWithin, if_neg (by simp), if_neg (by simpa using h), unifyListWithin_map,
    unifyList_eq]

theorem unify_fn (a₁ a₂ b₁ b₂ : Ty) : unify (.fn a₁ a₂) (.fn b₁ b₂) =
    (unify a₁ b₁).bind fun s₁ =>
      (unify (s₁.apply a₂) (s₁.apply b₂)).bind fun s₂ => .ok (s₁.compose s₂) := by
  rw [unify, unifyWithin, unify]
  cases h₁ : unifyWithin a₁ b₁ with
  | error e => rfl
  | ok s₁ =>
      simp only [Except.map, Except.bind, unify]
      cases h₂ : unifyWithin (s₁.1.apply a₂) (s₁.1.apply b₂) with
      | error e => rfl
      | ok s₂ => rfl

theorem confined_of_unify {a b : Ty} {s : Subst} (h : unify a b = .ok s) :
    s.Confined (pairVars a b) := by
  unfold unify at h
  cases hs : unifyWithin a b with
  | error e => simp [hs, Except.map] at h
  | ok u =>
      rw [hs] at h
      exact Except.ok.inj h ▸ u.2

theorem apply_empty (t : Ty) : (∅ : Subst).apply t = t := rfl

mutual

theorem unify_self (t : Ty) : unify t t = .ok ∅ ∨ unify t t = .error .quantified := by
  cases t with
  | blank => exact .inl (by simp [unify, unifyWithin, Except.map])
  | prim k => exact .inl (by simp [unify, unifyWithin, unifyAtoms_map])
  | nat n => exact .inl (by simp [unify, unifyWithin, unifyAtoms_map])
  | tag t => exact .inl (by simp [unify, unifyWithin, unifyAtoms_map])
  | var id => exact .inl (by simp [unify, unifyWithin, bindVar_map, bound])
  | poly id body => exact .inr (by simp [unify, unifyWithin, Except.map])
  | data n c args =>
      rw [unify_data rfl, unifyList_eq]
      exact unifyFrom_self args
  | fn a b =>
      rw [unify_fn]
      rcases unify_self a with h | h
      · rcases unify_self b with h' | h' <;>
          simp [h, Except.bind, apply_empty, h', Subst.compose_empty]
      · simp [h, Except.bind]

theorem unifyFrom_self (ts : List Ty) :
    unifyFrom ∅ ts ts = .ok ∅ ∨ unifyFrom ∅ ts ts = .error .quantified := by
  cases ts with
  | nil => exact .inl rfl
  | cons t ts =>
      rw [unifyFrom, apply_empty]
      rcases unify_self t with h | h
      · simpa [h, Except.bind, Subst.compose_empty] using unifyFrom_self ts
      · simp [h, Except.bind]

end

mutual

/-- Whether a type lacks no part. -/
def isWhole : Ty → Bool
  | .blank => false
  | .prim _ | .nat _ | .tag _ | .var _ => true
  | .data _ _ args => isWholeList args
  | .fn a b => a.isWhole && b.isWhole
  | .poly _ body => body.isWhole

def isWholeList : List Ty → Bool
  | [] => true
  | t :: ts => t.isWhole && isWholeList ts

end

mutual

theorem isWhole_bind {f : Int → Ty} (hf : ∀ x, (f x).isWhole = true) {t : Ty}
    (h : t.isWhole = true) : (t.bind f).isWhole = true := by
  cases t with
  | blank => cases h
  | prim | nat | tag => rfl
  | var id => exact hf id
  | data name constructor args => exact isWholeList_bindList hf h
  | fn a b =>
      rw [isWhole, Bool.and_eq_true] at h
      rw [bind, isWhole, isWhole_bind hf h.1, isWhole_bind hf h.2]
      rfl
  | poly id body =>
      refine isWhole_bind (fun x => ?_) (t := body) h
      split
      · rfl
      · exact hf x

theorem isWholeList_bindList {f : Int → Ty} (hf : ∀ x, (f x).isWhole = true) {ts : List Ty}
    (h : isWholeList ts = true) : isWholeList (bindList f ts) = true := by
  cases ts with
  | nil => rfl
  | cons t ts =>
      rw [isWholeList, Bool.and_eq_true] at h
      rw [bindList, isWholeList, isWhole_bind hf h.1, isWholeList_bindList hf h.2]
      rfl

end

end Formulary.Ty

namespace Formulary.Subst

/-- A substitution that puts whole types only. -/
def IsWhole (s : Subst) : Prop := ∀ x, (s.image x).isWhole = true

theorem isWhole_empty : IsWhole ∅ := fun _ => rfl

theorem isWhole_singleton {id : Int} {t : Ty} (h : t.isWhole = true) :
    IsWhole (singleton id t) := by
  intro x
  rw [image_singleton]
  split
  · exact h
  · rfl

namespace IsWhole

variable {s next : Subst}

theorem apply (h : s.IsWhole) {t : Ty} (ht : t.isWhole = true) : (s.apply t).isWhole = true := by
  rw [apply_eq_bind]
  exact Ty.isWhole_bind h ht

theorem compose (hs : s.IsWhole) (hnext : next.IsWhole) : (s.compose next).IsWhole := fun x => by
  rw [image_compose]
  exact hnext.apply (hs x)

theorem lacks_eq (h : s.IsWhole) (x : Int) : s.lacks x = false := by
  have hx := h x
  unfold lacks
  split
  · rename_i hblank
    rw [hblank] at hx
    cases hx
  · rfl

theorem applied?_eq (h : s.IsWhole) (t : Ty) : s.applied? t = some (s.apply t) := by
  have hnone : t.freeOccurrences.any s.lacks = false := by simp [h.lacks_eq]
  rw [applied?, hnone, Bool.not_false, Bool.or_true, if_pos rfl]

theorem composed?_eq (hs : s.IsWhole) (hnext : next.IsWhole) :
    s.composed? next = some (s.compose next) := by
  refine if_pos (Bool.or_eq_true_iff.2 (.inr (Bool.and_eq_true_iff.2 ⟨?_, ?_⟩)))
  · simp [hnext.lacks_eq]
  · exact List.all_eq_true.2 fun e _ => by simp [hs.lacks_eq, hnext.applied?_eq]

end IsWhole

end Formulary.Subst

namespace Formulary.Ty

/-- What is known of an answer: it stays within the variables `vs`, it puts whole types unless some
may be lacking (`partially`), and it is the result of unification, except that a type which binds
variables may have been passed over where types are shared. -/
structure Answers (shared partially : Prop) (vs : List Int)
    (result answer : Except UnifyError Subst) : Prop where
  confined : ∀ s, answer = .ok s → s.Confined vs
  whole : ∀ s, answer = .ok s → partially ∨ s.IsWhole
  agrees : answer = result ∨ shared ∧ result = .error .quantified

variable {shared partially : Prop}

namespace Equating

def isWhole : Equating → Bool
  | .pair a b => a.isWhole && b.isWhole
  | .lists as bs => isWholeList as && isWholeList bs

/-- A problem of unification, in which types may be lacking or not. -/
def Posed (partially : Prop) (p : Equating) : Prop := p.Balanced ∧ (partially ∨ p.isWhole = true)

theorem answers_identical (hshared : shared) (t : Ty) :
    Answers shared partially (pair t t).vars (pair t t).answer (.ok ∅) where
  confined _ h := Except.ok.inj h ▸ Subst.confined_empty _
  whole _ h := .inr (Except.ok.inj h ▸ Subst.isWhole_empty)
  agrees := (unify_self t).imp Eq.symm fun h => ⟨hshared, h⟩

theorem smaller_of_confined {p : Equating} {s : Subst} {a b : Ty} (hs : s.Confined p.vars)
    (ha : ∀ x ∈ a.freeOccurrences, x ∈ p.vars) (hb : ∀ x ∈ b.freeOccurrences, x ∈ p.vars)
    (hsize : a.size + b.size < p.size) : (pair (s.apply a) (s.apply b)).Smaller p := by
  rcases hs.apply_smaller ha hb with h | ⟨h, ha', hb'⟩
  · exact .inl h
  · refine .inr ⟨h, ?_⟩
    rw [ha', hb']
    exact hsize

end Equating

open Equating

/-- The specification of the calls that are made for the problem `p`. -/
abbrev Meeting (shared partially : Prop) (p : Equating) (Q : Except UnifyError Subst → Prop) :
    UnifyTree → Prop :=
  CallTree.YieldsOr partially (fun q => q.Posed partially ∧ q.Smaller p)
    (fun q => Answers shared partially q.vars q.answer) Q

theorem yields_apply {pre : Equating → Prop}
    {post : Equating → Except UnifyError Subst → Prop} {s : Subst} (hs : partially ∨ s.IsWhole)
    (t : Ty) : (CallTree.orFault (s.applied? t)).YieldsOr partially pre post (· = s.apply t) := by
  rcases hs with hpartially | hs
  · unfold Subst.applied?
    split
    · exact rfl
    · exact hpartially
  · rw [hs.applied?_eq]
    exact rfl

theorem yields_compose {pre : Equating → Prop}
    {post : Equating → Except UnifyError Subst → Prop} {s next : Subst}
    (hs : partially ∨ s.IsWhole) (hnext : partially ∨ next.IsWhole) :
    (CallTree.orFault (s.composed? next)).YieldsOr partially pre post (· = s.compose next) := by
  by_cases hpartially : partially
  · unfold Subst.composed?
    split
    · exact rfl
    · exact hpartially
  · rw [(hs.resolve_left hpartially).composed?_eq (hnext.resolve_left hpartially)]
    exact rfl

theorem meeting_equate {p : Equating} {a b : Ty} {vs : List Int} {next : Subst → UnifyTree}
    {result : Subst → Except UnifyError Subst} (hsmaller : (pair a b).Smaller p)
    (hwhole : partially ∨ (pair a b).isWhole = true)
    (hnext : ∀ s, s.Confined (pairVars a b) → (partially ∨ s.IsWhole) →
      Meeting shared partially p (Answers shared partially vs (result s)) (next s)) :
    Meeting shared partially p (Answers shared partially vs ((unify a b).bind result))
      (equate a b next) := by
  refine ⟨⟨⟨trivial, hwhole⟩, hsmaller⟩, fun answer hanswer => ?_⟩
  cases answer with
  | error e =>
      refine ⟨by simp, by simp, hanswer.agrees.imp (fun h => ?_) fun h => ?_⟩
      · rw [show unify a b = .error e from h.symm]
        rfl
      · exact ⟨h.1, by rw [show unify a b = .error .quantified from h.2]; rfl⟩
  | ok s =>
      refine (hnext s (hanswer.confined s rfl) (hanswer.whole s rfl)).mono fun final hfinal =>
        ⟨hfinal.confined, hfinal.whole, ?_⟩
      rcases hanswer.agrees with h | h
      · rw [show unify a b = .ok s from h.symm]
        exact hfinal.agrees
      · rw [show unify a b = .error .quantified from h.2]
        exact .inr ⟨h.1, rfl⟩

theorem meeting_equateUnder {p : Equating} {s : Subst} {a b : Ty} {next : Subst → UnifyTree}
    (result : Subst → Except UnifyError Subst) (hs : s.Confined p.vars)
    (hswhole : partially ∨ s.IsWhole) (ha : ∀ x ∈ a.freeOccurrences, x ∈ p.vars)
    (hb : ∀ x ∈ b.freeOccurrences, x ∈ p.vars) (hwhole : partially ∨ (pair a b).isWhole = true)
    (hsize : a.size + b.size < p.size)
    (hnext : ∀ s, s.Confined p.vars → (partially ∨ s.IsWhole) →
      Meeting shared partially p (Answers shared partially p.vars (result s)) (next s)) :
    Meeting shared partially p
      (Answers shared partially p.vars ((unify (s.apply a) (s.apply b)).bind fun found =>
        result (s.compose found))) (equateUnder s a b next) := by
  refine (yields_apply hswhole a).bind fun a' ha' => (yields_apply hswhole b).bind fun b' hb' => ?_
  subst ha' hb'
  have happlied : partially ∨ (pair (s.apply a) (s.apply b)).isWhole = true := by
    rcases hswhole with h | h
    · exact .inl h
    · refine hwhole.imp_right fun hpair => ?_
      rw [Equating.isWhole, Bool.and_eq_true] at hpair ⊢
      exact ⟨h.apply hpair.1, h.apply hpair.2⟩
  refine meeting_equate (smaller_of_confined hs ha hb hsize) happlied
    fun found hfound hfoundWhole => ?_
  refine (yields_compose hswhole hfoundWhole).bind fun s' hs' => ?_
  subst hs'
  refine hnext _ (hs.compose hfound fun _ => Subst.Confined.mem_image_of_mem_apply ha hb) ?_
  rcases hswhole with h | h
  · exact .inl h
  · exact hfoundWhole.imp_right h.compose

theorem meeting_takePairs {p : Equating} {s : Subst} {as bs : List Ty} (hs : s.Confined p.vars)
    (hswhole : partially ∨ s.IsWhole) (hlength : as.length = bs.length)
    (has : ∀ x ∈ freeOccurrencesList as, x ∈ p.vars)
    (hbs : ∀ x ∈ freeOccurrencesList bs, x ∈ p.vars)
    (hwhole : partially ∨ (lists as bs).isWhole = true)
    (hsize : sizeList as + sizeList bs ≤ p.size) :
    Meeting shared partially p (Answers shared partially p.vars (unifyFrom s as bs))
      (takePairs s as bs) := by
  induction as generalizing s bs with
  | nil =>
      refine ⟨fun u h => Except.ok.inj h ▸ hs, fun u h => Except.ok.inj h ▸ hswhole, .inl ?_⟩
      rw [unifyFrom]
      simp
  | cons a as ih =>
      cases bs with
      | nil => simp at hlength
      | cons b bs =>
          simp only [freeOccurrencesList, List.mem_append] at has hbs
          simp only [sizeList] at hsize
          have hparts : partially ∨ (pair a b).isWhole = true ∧ (lists as bs).isWhole = true :=
            hwhole.imp_right fun h => by
              simp only [Equating.isWhole, isWholeList, Bool.and_eq_true] at h ⊢
              exact ⟨⟨h.1.1, h.2.1⟩, h.1.2, h.2.2⟩
          rw [unifyFrom]
          refine meeting_equateUnder (fun s => unifyFrom s as bs) hs hswhole
            (fun x hx => has x (.inl hx)) (fun x hx => hbs x (.inl hx)) (hparts.imp_right (·.1))
            (by omega) fun s' hs' hswhole' => ?_
          exact ih hs' hswhole' (by simpa using hlength) (fun x hx => has x (.inr hx))
            (fun x hx => hbs x (.inr hx)) (hparts.imp_right (·.2)) (by omega)

theorem meeting_fn {a₁ a₂ b₁ b₂ : Ty} :
    let p := pair (.fn a₁ a₂) (.fn b₁ b₂)
    (partially ∨ p.isWhole = true) →
    Meeting shared partially p (Answers shared partially p.vars p.answer)
      (takeApart (.fn a₁ a₂) (.fn b₁ b₂)) := by
  intro p hwhole
  have hparts : partially ∨ (pair a₁ b₁).isWhole = true ∧ (pair a₂ b₂).isWhole = true :=
    hwhole.imp_right fun h => by
      simp only [p, Equating.isWhole, Ty.isWhole, Bool.and_eq_true] at h ⊢
      exact ⟨⟨h.1.1, h.2.1⟩, h.1.2, h.2.2⟩
  have hvars₁ : ∀ x ∈ pairVars a₁ b₁, x ∈ p.vars := by grind [vars, freeOccurrences]
  have ha₂ : ∀ x ∈ a₂.freeOccurrences, x ∈ p.vars := by grind [vars, freeOccurrences]
  have hb₂ : ∀ x ∈ b₂.freeOccurrences, x ∈ p.vars := by grind [vars, freeOccurrences]
  have hsize : p.size = a₁.size + a₂.size + 1 + (b₁.size + b₂.size + 1) := rfl
  have hsmaller : (pair a₁ b₁).Smaller p := by
    refine .inr ⟨distinct_le hvars₁, ?_⟩
    rw [hsize, Equating.size]
    omega
  rw [show p.answer = _ from unify_fn a₁ a₂ b₁ b₂]
  refine meeting_equate hsmaller (hparts.imp_right (·.1)) fun s h hswhole => ?_
  refine meeting_equateUnder .ok (h.mono hvars₁) hswhole ha₂ hb₂
    (hparts.imp_right (·.2)) (by omega) fun s' hs' hswhole' => ?_
  exact ⟨fun u hu => Except.ok.inj hu ▸ hs', fun u hu => Except.ok.inj hu ▸ hswhole', .inl rfl⟩

theorem meeting_data (n c : String) {as bs : List Ty} (hlength : as.length = bs.length) :
    let p := pair (.data n c as) (.data n c bs)
    (partially ∨ p.isWhole = true) →
    Meeting shared partially p (Answers shared partially p.vars p.answer)
      (.call (.lists as bs) .done) := by
  intro p hwhole
  have hsize : p.size = sizeList as + 1 + (sizeList bs + 1) := rfl
  rw [show p.answer = _ from unify_data hlength]
  refine ⟨⟨⟨hlength, hwhole⟩, .inr ⟨Nat.le_refl _, ?_⟩⟩, fun answer hanswer => hanswer⟩
  rw [hsize, Equating.size]
  omega

theorem isWhole_of_bound {id : Int} {t : Ty} {s : Subst} (ht : partially ∨ t.isWhole = true)
    (h : bound id t = .ok s) : partially ∨ s.IsWhole := by
  refine ht.imp_right fun ht => ?_
  unfold bound at h
  split at h
  · split at h <;> cases h
    · exact Subst.isWhole_empty
    · exact Subst.isWhole_singleton ht
  · split at h <;> cases h
    exact Subst.isWhole_singleton ht

/-- A problem without parts is decided at once, as unification decides it. -/
theorem answers_of_decided {a b : Ty} {answer : Except UnifyError Subst} (h : unify a b = answer)
    (hwhole : ∀ s, answer = .ok s → partially ∨ s.IsWhole) :
    Answers shared partially (pair a b).vars (pair a b).answer answer where
  confined _ hs := confined_of_unify (h.trans hs)
  whole := hwhole
  agrees := .inl h.symm

theorem meeting_takeApart {a b : Ty} (hwhole : partially ∨ (pair a b).isWhole = true) :
    Meeting shared partially (pair a b)
      (Answers shared partially (pair a b).vars (pair a b).answer) (takeApart a b) := by
  have ha : partially ∨ a.isWhole = true := hwhole.imp_right fun h => (Bool.and_eq_true_iff.1 h).1
  have hb : partially ∨ b.isWhole = true := hwhole.imp_right fun h => (Bool.and_eq_true_iff.1 h).2
  have hempty (s : Subst) (h : Except.ok (ε := UnifyError) ∅ = .ok s) : partially ∨ s.IsWhole :=
    .inr (Except.ok.inj h ▸ Subst.isWhole_empty)
  have hatoms {p : Prop} [Decidable p] {e : UnifyError} (s : Subst)
      (h : (if p then Except.ok (∅ : Subst) else .error e) = .ok s) : partially ∨ s.IsWhole := by
    split at h
    · exact hempty s h
    · cases h
  have hrefused {e : UnifyError} (s : Subst) (h : Except.error e = .ok s) :
      partially ∨ s.IsWhole := by
    cases h
  fun_cases takeApart a b
  case case1 => exact answers_of_decided (by simp [unify, unifyWithin, Except.map]) hempty
  case case2 =>
    exact answers_of_decided (by rw [unify, unifyWithin, bindVar_map]) fun s => isWhole_of_bound hb
  case case3 =>
    exact answers_of_decided (by rw [unify, unifyWithin, bindVar_map]; assumption)
      fun s => isWhole_of_bound ha
  case case4 =>
    exact answers_of_decided (by rw [unify, unifyWithin, Except.map]; assumption) hrefused
  case case5 =>
    exact answers_of_decided (by rw [unify, unifyWithin, Except.map] <;> assumption) hrefused
  case case6 => exact answers_of_decided (by simp [unify, unifyWithin, unifyAtoms_map]) hatoms
  case case7 => exact answers_of_decided (by simp [unify, unifyWithin, unifyAtoms_map]) hatoms
  case case8 => exact answers_of_decided (by simp [unify, unifyWithin, unifyAtoms_map]) hatoms
  case case9 hne =>
    exact answers_of_decided (by rw [unify, unifyWithin, if_pos hne, Except.map]) hrefused
  case case10 heq hlength =>
    exact answers_of_decided
      (by rw [unify, unifyWithin, if_neg heq, if_pos hlength, Except.map]) hrefused
  case case11 n c as n' c' bs heq hlength =>
    obtain ⟨rfl, rfl⟩ : n = n' ∧ c = c' := by simpa using heq
    exact meeting_data n c (by simpa using hlength) hwhole
  case case12 a₁ a₂ b₁ b₂ => exact meeting_fn hwhole
  case case13 =>
    exact answers_of_decided (by rw [unify, unifyWithin, Except.map] <;> assumption) hrefused

theorem unification_meets (shared partially : Prop) :
    (unification shared).MeetsOr partially (Posed partially)
      (fun p => Answers shared partially p.vars p.answer) Smaller := by
  intro p hp
  change Meeting shared partially p (Answers shared partially p.vars p.answer) _
  cases p with
  | pair a b =>
      rw [unification]
      split
      case isTrue h =>
        obtain ⟨hshared, rfl⟩ := h
        exact ⟨answers_identical hshared a, meeting_takeApart hp.2⟩
      case isFalse => exact meeting_takeApart hp.2
  | lists as bs =>
      rw [answer, unifyList_eq]
      exact meeting_takePairs (Subst.confined_empty _) (.inr Subst.isWhole_empty) hp.1
        (by simp +contextual [vars]) (by simp +contextual [vars]) hp.2 (Nat.le_refl _)

/-- Unification terminates, on any two types and on any lists of one length, wherever identical types
are shared: every recursive call is on a problem with fewer distinct free variables, or with no more
of them and of a smaller size. If the types lack nothing, it ends with an answer; otherwise it may
stop at a variable that it has bound to no type. What it ends with is what `unify` and `unifyList`
say, but for types that bind variables themselves, which `unify` refuses and sharing may pass over. -/
theorem unification_terminates (shared : Prop) {p : Equating} (hp : p.Balanced) :
    (∀ q, (unification shared).Reaches p q → q.Balanced ∧
      ∀ r, (unification shared).Calls q r → r.Smaller q) ∧
    Acc (fun q p => (unification shared).Calls p q) p ∧
    (p.isWhole = true → (unification shared).Terminates p ∧
      ∃ result, (unification shared).Returns p result) ∧
    ∀ result, (unification shared).Returns p result →
      result = p.answer ∨ shared ∧ p.answer = .error .quantified := by
  have hmeets := unification_meets shared True
  have hposed : p.Posed True := ⟨hp, .inl trivial⟩
  refine ⟨fun q hq => ?_, hmeets.acc smaller_wellFounded hposed, fun hwhole => ?_,
    fun result h => ?_⟩
  · have hq := hmeets.of_reaches hposed hq
    exact ⟨hq.1, fun r hr => (hmeets.of_calls hq hr).2⟩
  · have hterminates := Procedure.Meets.terminates (unification_meets shared False)
      smaller_wellFounded ⟨hp, .inr hwhole⟩
    exact ⟨hterminates, hterminates.exists_returns⟩
  · exact (hmeets.post_of_returns hposed h).agrees

theorem unification_terminates_enlarged :
    let p := lists [.var 0, .var 0] [.fn (.var 1) (.var 1), .fn (.var 2) (.var 3)]
    p.Balanced ∧ (unification True).Terminates p ∧
      ∀ result, (unification True).Returns p result →
        result = p.answer ∨ True ∧ p.answer = .error .quantified :=
  have h := unification_terminates True (p := lists [.var 0, .var 0]
    [.fn (.var 1) (.var 1), .fn (.var 2) (.var 3)]) rfl
  ⟨rfl, (h.2.2.1 rfl).1, h.2.2.2⟩

/-- A variable that was bound to no type cannot be looked up. -/
example (shared : Prop) (result : Except UnifyError Subst) :
    ¬(unification shared).Returns (lists [.var 0, .var 0] [.blank, .scalar]) result := by
  rintro ⟨depth, h⟩
  cases depth with
  | zero => exact h
  | succ depth =>
      obtain ⟨answer, hanswer, hrest⟩ := h
      have hposed : (pair (.var 0) .blank).Posed True := ⟨trivial, .inl trivial⟩
      have hfound : (pair (.var 0) .blank).answer = .ok (.singleton 0 .blank) := by
        simp [Equating.answer, unify, unifyWithin, bindVar_map, bound, occurs]
      have hagrees := ((unification_meets shared True).post_of_returns hposed
        ⟨depth, hanswer⟩).agrees
      rw [hfound] at hagrees
      obtain rfl | h := hagrees
      · exact hrest
      · cases h.2

end Formulary.Ty
