import Formulary.Ty.Substitution

/-!
Unification: the most general substitution that makes two types equal. Arguments are unified from
left to right, and what has been found is applied before the next pair is looked at.

The recursion is on types that the substitution found so far may have enlarged. It ends because a
substitution that binds anything removes a variable for good: along a recursive call the number of
distinct free variables falls, or stays and the types get smaller. `Confined` is the fact about
results on which this rests.
-/

namespace Formulary

/-- Why two types have no unifier. -/
inductive UnifyError where
  | mismatch (expected actual : Ty)
  /-- Two instances of one data type with different numbers of arguments. -/
  | arity (expected actual : Ty) (constructor : String)
  /-- A variable would stand for a type that holds it. -/
  | occurs (id : Int) (t : Ty)
  /-- A type that binds variables was not instantiated. -/
  | quantified

namespace Ty

/-- The number of distinct numbers in a list. -/
def distinct (ids : List Int) : Nat := ids.eraseDups.length

theorem nodup_eraseDups (ids : List Int) : ids.eraseDups.Nodup := by
  match ids with
  | [] => simp
  | id :: ids =>
    rw [List.eraseDups_cons, List.nodup_cons]
    exact ⟨by simp [List.mem_eraseDups], nodup_eraseDups _⟩
termination_by ids.length
decreasing_by
  have := List.length_filter_le (fun x => !x == id) ids
  simp only [List.length_cons]
  omega

theorem distinct_le {vs ws : List Int} (h : ∀ x ∈ vs, x ∈ ws) : distinct vs ≤ distinct ws :=
  (nodup_eraseDups vs).length_le_of_subset fun _ hx =>
    List.mem_eraseDups.2 (h _ (List.mem_eraseDups.1 hx))

theorem distinct_lt {vs ws : List Int} (h : ∀ x ∈ vs, x ∈ ws) {v : Int} (hv : v ∈ ws)
    (hnot : v ∉ vs) : distinct vs < distinct ws := by
  have hnodup : (v :: vs.eraseDups).Nodup :=
    List.nodup_cons.2 ⟨fun hmem => hnot (List.mem_eraseDups.1 hmem), nodup_eraseDups vs⟩
  have hsub : v :: vs.eraseDups ⊆ ws.eraseDups := by
    intro x hx
    rcases List.mem_cons.1 hx with rfl | hx
    · exact List.mem_eraseDups.2 hv
    · exact List.mem_eraseDups.2 (h x (List.mem_eraseDups.1 hx))
  exact hnodup.length_le_of_subset hsub

end Ty

namespace Subst

/-- A substitution that stays within the variables `vs`: it binds no other variable, brings in no
other variable, and, unless it is empty, removes one of them. -/
structure Confined (vs : List Int) (s : Subst) : Prop where
  outside : ∀ x, x ∉ vs → s.image x = .var x
  inside : ∀ x ∈ vs, ∀ y ∈ (s.image x).freeOccurrences, y ∈ vs
  removes : s.isEmpty = true ∨ ∃ v ∈ vs, ∀ x ∈ vs, v ∉ (s.image x).freeOccurrences

theorem confined_empty (vs : List Int) : Confined vs ∅ where
  outside _ _ := rfl
  inside x hx y hy := by
    have : y = x := by simpa [image, Ty.freeOccurrences] using hy
    exact this ▸ hx
  removes := .inl rfl

theorem confined_singleton {vs : List Int} {id : Int} {t : Ty} (hid : id ∈ vs)
    (ht : ∀ y ∈ t.freeOccurrences, y ∈ vs) (hoccurs : t.occurs id = false) :
    Confined vs (singleton id t) where
  outside x hx := by
    rw [image_singleton, if_neg]
    rintro rfl
    exact hx hid
  inside x hx y hy := by
    rw [image_singleton] at hy
    split at hy
    · exact ht y hy
    · have : y = x := by simpa [Ty.freeOccurrences] using hy
      exact this ▸ hx
  removes := by
    refine .inr ⟨id, hid, fun x _ hmem => ?_⟩
    rw [image_singleton] at hmem
    split at hmem
    · rw [← Ty.occurs_iff_mem, hoccurs] at hmem
      exact Bool.false_ne_true hmem
    · rename_i hne
      exact hne (by simpa [Ty.freeOccurrences] using hmem)

namespace Confined

variable {vs ws : List Int} {s next : Subst}

theorem mono (h : Confined vs s) (hsub : ∀ x ∈ vs, x ∈ ws) : Confined ws s where
  outside x hx := h.outside x fun hmem => hx (hsub x hmem)
  inside x hx y hy := by
    by_cases hxv : x ∈ vs
    · exact hsub y (h.inside x hxv y hy)
    · have : y = x := by simpa [h.outside x hxv, Ty.freeOccurrences] using hy
      exact this ▸ hx
  removes := by
    rcases h.removes with hempty | ⟨v, hv, hgone⟩
    · exact .inl hempty
    · refine .inr ⟨v, hsub v hv, fun x _ hmem => ?_⟩
      by_cases hxv : x ∈ vs
      · exact hgone x hxv hmem
      · have : v = x := by simpa [h.outside x hxv, Ty.freeOccurrences] using hmem
        exact hxv (this ▸ hv)

theorem mem_of_mem_apply (h : Confined vs s) {t : Ty}
    (ht : ∀ x ∈ t.freeOccurrences, x ∈ vs) {y : Int}
    (hy : y ∈ (s.apply t).freeOccurrences) : y ∈ vs := by
  rw [apply_eq_bind] at hy
  obtain ⟨x, hx, hy⟩ := Ty.mem_freeOccurrences_bind hy
  exact h.inside x (ht x hx) y hy

/-- What was found for fewer variables may be added to what was found before. -/
theorem compose (hs : Confined vs s) (hn : Confined ws next)
    (hsub : ∀ w ∈ ws, ∃ x ∈ vs, w ∈ (s.image x).freeOccurrences) :
    Confined vs (s.compose next) := by
  have hws : ∀ w ∈ ws, w ∈ vs := fun w hw => by
    obtain ⟨x, hx, hmem⟩ := hsub w hw
    exact hs.inside x hx w hmem
  have himage : ∀ x y, y ∈ ((s.compose next).image x).freeOccurrences →
      ∃ z ∈ (s.image x).freeOccurrences, y ∈ (next.image z).freeOccurrences := fun x y hy => by
    rw [image_compose, apply_eq_bind] at hy
    exact Ty.mem_freeOccurrences_bind hy
  have hnext : ∀ z ∈ vs, ∀ y ∈ (next.image z).freeOccurrences, y ∈ vs := fun z hz y hy => by
    by_cases hzw : z ∈ ws
    · exact hws y (hn.inside z hzw y hy)
    · have : y = z := by simpa [hn.outside z hzw, Ty.freeOccurrences] using hy
      exact this ▸ hz
  refine ⟨fun x hx => ?_, fun x hx y hy => ?_, ?_⟩
  · rw [image_compose, hs.outside x hx, apply_var]
    exact hn.outside x fun hxw => hx (hws x hxw)
  · obtain ⟨z, hz, hy⟩ := himage x y hy
    exact hnext z (hs.inside x hx z hz) y hy
  · rcases hs.removes with hempty | ⟨v, hv, hgone⟩
    · rcases hn.removes with hnempty | ⟨v, hv, hgone⟩
      · left
        simp only [Subst.compose, hnempty, if_true, hempty]
      · refine .inr ⟨v, hws v hv, fun x hx hmem => ?_⟩
        obtain ⟨z, hz, hmem⟩ := himage x v hmem
        by_cases hzw : z ∈ ws
        · exact hgone z hzw hmem
        · have : v = z := by simpa [hn.outside z hzw, Ty.freeOccurrences] using hmem
          exact hzw (this ▸ hv)
    · refine .inr ⟨v, hv, fun x hx hmem => ?_⟩
      obtain ⟨z, hz, hmem⟩ := himage x v hmem
      by_cases hzw : z ∈ ws
      · obtain ⟨x', hx', hv'⟩ := hsub v (hn.inside z hzw v hmem)
        exact hgone x' hx' hv'
      · have : v = z := by simpa [hn.outside z hzw, Ty.freeOccurrences] using hmem
        exact hgone x hx (this ▸ hz)

theorem apply_smaller (h : Confined vs s) {a b : Ty}
    (ha : ∀ x ∈ a.freeOccurrences, x ∈ vs) (hb : ∀ x ∈ b.freeOccurrences, x ∈ vs) :
    Ty.distinct ((s.apply a).freeOccurrences ++ (s.apply b).freeOccurrences) < Ty.distinct vs ∨
      (Ty.distinct ((s.apply a).freeOccurrences ++ (s.apply b).freeOccurrences) ≤
          Ty.distinct vs ∧ s.apply a = a ∧ s.apply b = b) := by
  have hsub : ∀ y ∈ (s.apply a).freeOccurrences ++ (s.apply b).freeOccurrences, y ∈ vs := by
    intro y hy
    rcases List.mem_append.1 hy with hy | hy
    · exact h.mem_of_mem_apply ha hy
    · exact h.mem_of_mem_apply hb hy
  rcases h.removes with hempty | ⟨v, hv, hgone⟩
  · refine .inr ⟨Ty.distinct_le hsub, ?_, ?_⟩ <;> simp [Subst.apply, hempty]
  · refine .inl (Ty.distinct_lt hsub hv fun hmem => ?_)
    rcases List.mem_append.1 hmem with hmem | hmem
    · rw [apply_eq_bind] at hmem
      obtain ⟨x, hx, hmem⟩ := Ty.mem_freeOccurrences_bind hmem
      exact hgone x (ha x hx) hmem
    · rw [apply_eq_bind] at hmem
      obtain ⟨x, hx, hmem⟩ := Ty.mem_freeOccurrences_bind hmem
      exact hgone x (hb x hx) hmem

theorem mem_image_of_mem_apply {a b : Ty}
    (ha : ∀ x ∈ a.freeOccurrences, x ∈ vs) (hb : ∀ x ∈ b.freeOccurrences, x ∈ vs) {w : Int}
    (hw : w ∈ (s.apply a).freeOccurrences ++ (s.apply b).freeOccurrences) :
    ∃ x ∈ vs, w ∈ (s.image x).freeOccurrences := by
  simp only [apply_eq_bind, List.mem_append] at hw
  rcases hw with hw | hw
  · obtain ⟨x, hx, hw⟩ := Ty.mem_freeOccurrences_bind hw
    exact ⟨x, ha x hx, hw⟩
  · obtain ⟨x, hx, hw⟩ := Ty.mem_freeOccurrences_bind hw
    exact ⟨x, hb x hx, hw⟩

end Confined

end Subst

namespace Ty

/-- The free variables of a pair of types. -/
abbrev pairVars (a b : Ty) : List Int := a.freeOccurrences ++ b.freeOccurrences

/-- A unifier together with the fact that it stays within some variables. -/
abbrev Unifier (vs : List Int) : Type := { s : Subst // s.Confined vs }

/-- Binds a variable to a type that does not hold it. -/
def bindVar (vs : List Int) (id : Int) (t : Ty) (hid : id ∈ vs)
    (ht : ∀ y ∈ t.freeOccurrences, y ∈ vs) : Except UnifyError (Unifier vs) :=
  match t with
  | .var id' =>
    if h : id' = id then .ok ⟨∅, Subst.confined_empty vs⟩
    else .ok ⟨Subst.singleton id (.var id'),
      Subst.confined_singleton hid ht (by simpa [occurs] using h)⟩
  | t =>
    if h : t.occurs id = true then .error (.occurs id t)
    else .ok ⟨Subst.singleton id t, Subst.confined_singleton hid ht (by simpa using h)⟩

/-- No bindings if a test passes, and a mismatch otherwise. -/
def unifyAtoms (vs : List Int) (a b : Ty) (equal : Bool) : Except UnifyError (Unifier vs) :=
  if equal then .ok ⟨∅, Subst.confined_empty vs⟩ else .error (.mismatch a b)

theorem measure_lt {m n k l : Nat} (h : m < k ∨ (m ≤ k ∧ n < l)) :
    Prod.Lex (· < ·) (· < ·) (m, n) (k, l) := by
  rcases h with h | ⟨hle, h⟩
  · exact .left _ _ h
  · rcases Nat.lt_or_eq_of_le hle with hlt | rfl
    · exact .left _ _ hlt
    · exact .right _ h

mutual

def unifyWithin (a b : Ty) : Except UnifyError (Unifier (pairVars a b)) :=
  match a, b with
  | .blank, .blank => .ok ⟨∅, Subst.confined_empty _⟩
  | .var id, b => bindVar _ id b (by simp [freeOccurrences]) (by simp +contextual)
  | a, .var id => bindVar _ id a (by simp [freeOccurrences]) (by simp +contextual)
  | .poly _ _, _ => .error .quantified
  | _, .poly _ _ => .error .quantified
  | .prim k, .prim k' => unifyAtoms _ (.prim k) (.prim k') (k = k')
  | .nat n, .nat n' => unifyAtoms _ (.nat n) (.nat n') (n = n')
  | .tag t, .tag t' => unifyAtoms _ (.tag t) (.tag t') (t = t')
  | .data n c as, .data n' c' bs =>
    if n ≠ n' ∨ c ≠ c' then .error (.mismatch (.data n c as) (.data n' c' bs))
    else if as.length ≠ bs.length then .error (.arity (.data n c as) (.data n' c' bs) c)
    else unifyListWithin _ ⟨∅, Subst.confined_empty _⟩ as bs
      (by simp +contextual [freeOccurrences]) (by simp +contextual [freeOccurrences])
  | .fn a₁ a₂, .fn b₁ b₂ =>
    match unifyWithin a₁ b₁ with
    | .error e => .error e
    | .ok s₁ =>
      have h₁ : s₁.1.Confined (pairVars (.fn a₁ a₂) (.fn b₁ b₂)) :=
        s₁.2.mono (by grind [freeOccurrences])
      match unifyWithin (s₁.1.apply a₂) (s₁.1.apply b₂) with
      | .error e => .error e
      | .ok s₂ =>
        .ok ⟨s₁.1.compose s₂.1, h₁.compose s₂.2 fun _ hw =>
          Subst.Confined.mem_image_of_mem_apply (by simp +contextual [freeOccurrences])
            (by simp +contextual [freeOccurrences]) hw⟩
  | a, b => .error (.mismatch a b)
termination_by (distinct (pairVars a b), a.size + b.size)
decreasing_by
  · apply measure_lt
    exact .inr ⟨Nat.le_refl _, by simp only [size]; omega⟩
  · apply measure_lt
    refine .inr ⟨distinct_le (by grind [freeOccurrences]), by simp only [size]; omega⟩
  · apply measure_lt
    rcases h₁.apply_smaller (a := a₂) (b := b₂) (by simp +contextual [freeOccurrences])
      (by simp +contextual [freeOccurrences]) with h | ⟨h, ha, hb⟩
    · exact .inl h
    · refine .inr ⟨h, ?_⟩
      rw [ha, hb]
      simp only [size]
      omega

/-- Unifies two lists pairwise under what has been found so far. -/
def unifyListWithin (vs : List Int) (s : Unifier vs) (as bs : List Ty)
    (has : ∀ x ∈ freeOccurrencesList as, x ∈ vs) (hbs : ∀ x ∈ freeOccurrencesList bs, x ∈ vs) :
    Except UnifyError (Unifier vs) :=
  match as, bs with
  | a :: as, b :: bs =>
    have ha : ∀ x ∈ a.freeOccurrences, x ∈ vs := fun x hx =>
      has x (by simp [freeOccurrencesList, hx])
    have hb : ∀ x ∈ b.freeOccurrences, x ∈ vs := fun x hx =>
      hbs x (by simp [freeOccurrencesList, hx])
    match unifyWithin (s.1.apply a) (s.1.apply b) with
    | .error e => .error e
    | .ok next =>
      unifyListWithin vs
        ⟨s.1.compose next.1, s.2.compose next.2 fun _ hw =>
          Subst.Confined.mem_image_of_mem_apply ha hb hw⟩
        as bs (fun x hx => has x (by simp [freeOccurrencesList, hx]))
        (fun x hx => hbs x (by simp [freeOccurrencesList, hx]))
  | _, _ => .ok s
termination_by (distinct vs, sizeList as + sizeList bs)
decreasing_by
  · apply measure_lt
    rcases s.2.apply_smaller ha hb with h | ⟨h, ha', hb'⟩
    · exact .inl h
    · refine .inr ⟨h, ?_⟩
      rw [ha', hb']
      simp only [sizeList]
      omega
  · apply measure_lt
    exact .inr ⟨Nat.le_refl _, by simp only [sizeList]; omega⟩

end

/-- The most general substitution that makes two types equal. -/
def unify (a b : Ty) : Except UnifyError Subst := (unifyWithin a b).map (·.1)

/-- The most general substitution that makes two lists of types equal pairwise. -/
def unifyList (as bs : List Ty) : Except UnifyError Subst :=
  (unifyListWithin (freeOccurrencesList as ++ freeOccurrencesList bs)
    ⟨∅, Subst.confined_empty _⟩ as bs (by simp +contextual) (by simp +contextual)).map (·.1)

end Ty

end Formulary
