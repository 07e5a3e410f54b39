import Formulary.Proofs.Unification

namespace Formulary

namespace Ty

mutual

/-- Numbers the variables of a type anew, bound ones included. -/
def rename (f : Int → Int) : Ty → Ty
  | .blank => .blank
  | .prim kind => .prim kind
  | .nat value => .nat value
  | .tag value => .tag value
  | .var id => .var (f id)
  | .data name constructor args => .data name constructor (renameList f args)
  | .fn a b => .fn (a.rename f) (b.rename f)
  | .poly id body => .poly (f id) (body.rename f)

def renameList (f : Int → Int) : List Ty → List Ty
  | [] => []
  | t :: ts => t.rename f :: renameList f ts

end

theorem renameList_eq_map (f : Int → Int) (ts : List Ty) : renameList f ts = ts.map (·.rename f) := by
  induction ts with
  | nil => rfl
  | cons t ts ih => rw [renameList, ih, List.map_cons]

variable {ρ : Equiv.Perm Int}

mutual

theorem rename_symm (t : Ty) : (t.rename ρ).rename ρ.symm = t := by
  cases t with
  | blank | prim | nat | tag => rfl
  | var id => simp [rename]
  | data name constructor args => simp only [rename, renameList_symm args]
  | fn a b => simp only [rename, rename_symm a, rename_symm b]
  | poly id body => simp [rename, rename_symm body]

theorem renameList_symm (ts : List Ty) : renameList ρ.symm (renameList ρ ts) = ts := by
  cases ts with
  | nil => rfl
  | cons t ts => simp only [renameList, rename_symm t, renameList_symm ts]

end

mutual

theorem rename_refl (t : Ty) : t.rename (Equiv.refl Int) = t := by
  cases t with
  | blank | prim | nat | tag | var => rfl
  | data name constructor args => rw [rename, renameList_refl args]
  | fn a b => rw [rename, rename_refl a, rename_refl b]
  | poly id body =>
      rw [rename, rename_refl body]
      rfl

theorem renameList_refl (ts : List Ty) : renameList (Equiv.refl Int) ts = ts := by
  cases ts with
  | nil => rfl
  | cons t ts => rw [renameList, rename_refl t, renameList_refl ts]

end

theorem eq_of_rename_eq {a b : Ty} (h : a.rename ρ = b) : a = b.rename ρ.symm := by
  rw [← h, rename_symm]

mutual

theorem freeOccurrences_rename (t : Ty) :
    (t.rename ρ).freeOccurrences = t.freeOccurrences.map ρ := by
  cases t with
  | blank | prim | nat | tag | var => rfl
  | data name constructor args => exact freeOccurrencesList_rename args
  | fn a b =>
      simp only [rename, freeOccurrences, List.map_append, freeOccurrences_rename a,
        freeOccurrences_rename b]
  | poly id body =>
      simp only [rename, freeOccurrences, freeOccurrences_rename body, List.filter_map]
      simp [Function.comp_def]

theorem freeOccurrencesList_rename (ts : List Ty) :
    freeOccurrencesList (renameList ρ ts) = (freeOccurrencesList ts).map ρ := by
  cases ts with
  | nil => rfl
  | cons t ts =>
      simp only [renameList, freeOccurrencesList, List.map_append, freeOccurrences_rename t,
        freeOccurrencesList_rename ts]

end

theorem occurs_rename (t : Ty) (x : Int) : (t.rename ρ).occurs (ρ x) = t.occurs x := by
  rw [Bool.eq_iff_iff, occurs_iff_mem, occurs_iff_mem, freeOccurrences_rename]
  exact List.mem_map_of_injective ρ.injective

mutual

theorem rename_bind (f : Int → Ty) (t : Ty) :
    (t.bind f).rename ρ = (t.rename ρ).bind fun x => (f (ρ.symm x)).rename ρ := by
  cases t with
  | blank | prim | nat | tag => rfl
  | var id => simp [rename, bind]
  | data name constructor args => simp only [bind, rename, rename_bindList f args]
  | fn a b => simp only [bind, rename, rename_bind f a, rename_bind f b]
  | poly id body =>
      simp only [bind, rename, rename_bind _ body]
      congr 1
      refine bind_congr fun x _ => ?_
      by_cases hx : x = ρ id
      · simp [hx, rename]
      · have hid : ρ.symm x ≠ id := fun h => hx (by rw [← h, Equiv.apply_symm_apply])
        rw [if_neg hx, if_neg hid]

theorem rename_bindList (f : Int → Ty) (ts : List Ty) :
    renameList ρ (bindList f ts) =
      bindList (fun x => (f (ρ.symm x)).rename ρ) (renameList ρ ts) := by
  cases ts with
  | nil => rfl
  | cons t ts => simp only [bindList, renameList, rename_bind f t, rename_bindList f ts]

end

mutual

theorem same_rename (a b : Ty) : same (a.rename ρ) (b.rename ρ) = same a b := by
  cases a with
  | blank | prim | nat | tag => cases b <;> simp [rename, same]
  | var id => cases b <;> simp [rename, same]
  | data name constructor args =>
      cases b with
      | data name' constructor' args' => simp only [rename, same, sameList_rename args args']
      | _ => simp [rename, same]
  | fn a₁ a₂ =>
      cases b with
      | fn b₁ b₂ => simp only [rename, same, same_rename a₁ b₁, same_rename a₂ b₂]
      | _ => simp [rename, same]
  | poly id body =>
      cases b with
      | poly id' body' => simp [rename, same, same_rename body body']
      | _ => simp [rename, same]

theorem sameList_rename (as bs : List Ty) :
    sameList (renameList ρ as) (renameList ρ bs) = sameList as bs := by
  cases as with
  | nil => cases bs <;> rfl
  | cons a as =>
      cases bs with
      | nil => rfl
      | cons b bs => simp only [renameList, sameList, same_rename a b, sameList_rename as bs]

end

mutual

theorem isGround_rename (f : Int → Int) (t : Ty) : (t.rename f).isGround = t.isGround := by
  cases t with
  | blank | prim | nat | tag | var | poly => rfl
  | data name constructor args => exact isGroundList_rename f args
  | fn a b => simp only [rename, isGround, isGround_rename f a, isGround_rename f b]

theorem isGroundList_rename (f : Int → Int) (ts : List Ty) :
    isGroundList (renameList f ts) = isGroundList ts := by
  cases ts with
  | nil => rfl
  | cons t ts => simp only [renameList, isGroundList, isGround_rename f t, isGroundList_rename f ts]

end

theorem paramKind_rename (f : Int → Int) (t : Ty) : (t.rename f).paramKind = t.paramKind := by
  cases t <;> rfl

theorem length_uncurry_rename (f : Int → Int) (t : Ty) :
    (t.rename f).uncurry.1.length = t.uncurry.1.length := by
  match t with
  | .fn a b =>
      have := length_uncurry_rename f b
      simp only [rename, uncurry, List.length_cons, this]
  | .blank | .prim _ | .nat _ | .tag _ | .var _ | .data _ _ _ | .poly _ _ => rfl

mutual

theorem renderWith_rename (f : Int → Int) (name : Int → String) (place : Place) (t : Ty) :
    (t.rename f).renderWith name place = t.renderWith (fun x => name (f x)) place := by
  match t with
  | .blank | .prim _ | .nat _ | .tag _ | .var _ => rfl
  | .data n constructor [] => rfl
  | .data n constructor (u :: us) =>
      simp only [rename, renameList, renderWith, renderWith_rename f name .alone u,
        renderRest_rename f name us]
  | .fn a b =>
      simp only [rename, renderWith, renderWith_rename f name .domain a,
        renderWith_rename f name .alone b]
  | .poly id body =>
      cases place <;> simp only [rename, renderWith, renderWith_rename f name .quantified body]

theorem renderRest_rename (f : Int → Int) (name : Int → String) (ts : List Ty) :
    renderRest name (renameList f ts) = renderRest (fun x => name (f x)) ts := by
  match ts with
  | [] => rfl
  | t :: ts =>
      simp only [renameList, renderRest, renderWith_rename f name .alone t,
        renderRest_rename f name ts]

end

mutual

theorem mentions_rename (f : Int → Int) (t : Ty) : (t.rename f).mentions = t.mentions.map f := by
  cases t with
  | blank | prim | nat | tag | var => rfl
  | data name constructor args => exact mentionsList_rename f args
  | fn a b => simp only [rename, mentions, List.map_append, mentions_rename f a, mentions_rename f b]
  | poly id body => simp only [rename, mentions, List.map_cons, mentions_rename f body]

theorem mentionsList_rename (f : Int → Int) (ts : List Ty) :
    mentionsList (renameList f ts) = (mentionsList ts).map f := by
  cases ts with
  | nil => rfl
  | cons t ts =>
      simp only [renameList, mentionsList, List.map_append, mentions_rename f t,
        mentionsList_rename f ts]

end

theorem eraseDups_map {α : Type} [DecidableEq α] {f : α → α} (hf : Function.Injective f)
    (l : List α) : (l.map f).eraseDups = l.eraseDups.map f := by
  match l with
  | [] => rfl
  | a :: l =>
      rw [List.map_cons, List.eraseDups_cons, List.eraseDups_cons, List.map_cons, List.filter_map]
      have hsame : (fun x => !x == f a) ∘ f = fun x => !x == a := by
        funext x
        simp [hf.eq_iff]
      rw [hsame, eraseDups_map hf (l.filter fun x => !x == a)]
termination_by l.length
decreasing_by
  have := List.length_filter_le (fun x => !x == a) l
  simp only [List.length_cons]
  omega

theorem idxOf_map {f : Int → Int} (hf : Function.Injective f) (x : Int) (ids : List Int) :
    (ids.map f).idxOf (f x) = ids.idxOf x := by
  induction ids with
  | nil => rfl
  | cons id ids ih =>
      simp only [List.map_cons, List.idxOf_cons, ih, beq_eq_decide, hf.eq_iff]

theorem render_rename (t : Ty) : (t.rename ρ).render = t.render := by
  simp only [render, mentions_rename, eraseDups_map ρ.injective, renderWith_rename,
    idxOf_map ρ.injective]

mutual

/-- A type binds no variables, and every instance of a data type within it is of a kind that is
allowed. What is missing counts as an instance without a name. -/
def IsOver (allowed : String → String → Prop) : Ty → Prop
  | .blank => allowed "" ""
  | .prim _ | .nat _ | .tag _ | .var _ => True
  | .data name constructor args => allowed name constructor ∧ IsOverList allowed args
  | .fn a b => a.IsOver allowed ∧ b.IsOver allowed
  | .poly _ _ => False

def IsOverList (allowed : String → String → Prop) : List Ty → Prop
  | [] => True
  | t :: ts => t.IsOver allowed ∧ IsOverList allowed ts

end

variable {allowed : String → String → Prop}

mutual

theorem isOver_bind {f : Int → Ty} (hf : ∀ x, (f x).IsOver allowed) {t : Ty}
    (h : t.IsOver allowed) : (t.bind f).IsOver allowed := by
  cases t with
  | blank => exact h
  | prim | nat | tag => trivial
  | var id => exact hf id
  | data name constructor args => exact ⟨h.1, isOverList_bindList hf h.2⟩
  | fn a b => exact ⟨isOver_bind hf h.1, isOver_bind hf h.2⟩
  | poly id body => exact h.elim

theorem isOverList_bindList {f : Int → Ty} (hf : ∀ x, (f x).IsOver allowed) {ts : List Ty}
    (h : IsOverList allowed ts) : IsOverList allowed (bindList f ts) := by
  cases ts with
  | nil => trivial
  | cons t ts => exact ⟨isOver_bind hf h.1, isOverList_bindList hf h.2⟩

end

mutual

theorem isOver_of_isMono {t : Ty} (h : t.isMono = true) : t.IsOver fun _ _ => True := by
  cases t with
  | blank | poly => cases h
  | prim | nat | tag | var => trivial
  | data name constructor args => exact ⟨trivial, isOverList_of_isMonoList h⟩
  | fn a b =>
      simp only [isMono, Bool.and_eq_true] at h
      exact ⟨isOver_of_isMono h.1, isOver_of_isMono h.2⟩

theorem isOverList_of_isMonoList {ts : List Ty} (h : isMonoList ts = true) :
    IsOverList (fun _ _ => True) ts := by
  match ts with
  | [] => trivial
  | t :: ts =>
      simp only [isMonoList, Bool.and_eq_true] at h
      exact ⟨isOver_of_isMono h.1, isOverList_of_isMonoList h.2⟩

end

mutual

theorem IsOver.isMono (hblank : ¬allowed "" "") {t : Ty} (h : t.IsOver allowed) :
    t.isMono = true := by
  cases t with
  | blank => exact absurd h hblank
  | prim | nat | tag | var => rfl
  | data name constructor args => exact IsOverList.isMonoList hblank h.2
  | fn a b =>
      rw [Ty.isMono, IsOver.isMono hblank h.1, IsOver.isMono hblank h.2]
      rfl
  | poly id body => exact h.elim

theorem IsOverList.isMonoList (hblank : ¬allowed "" "") {ts : List Ty}
    (h : IsOverList allowed ts) : Ty.isMonoList ts = true := by
  cases ts with
  | nil => rfl
  | cons t ts =>
      rw [Ty.isMonoList, IsOver.isMono hblank h.1, IsOverList.isMonoList hblank h.2]
      rfl

end

mutual

theorem IsOver.mono {allowed' : String → String → Prop}
    (hmono : ∀ name constructor, allowed name constructor → allowed' name constructor) {t : Ty}
    (h : t.IsOver allowed) : t.IsOver allowed' := by
  cases t with
  | blank => exact hmono _ _ h
  | prim | nat | tag | var => trivial
  | data name constructor args => exact ⟨hmono _ _ h.1, IsOverList.mono hmono h.2⟩
  | fn a b => exact ⟨IsOver.mono hmono h.1, IsOver.mono hmono h.2⟩
  | poly id body => exact h.elim

theorem IsOverList.mono {allowed' : String → String → Prop}
    (hmono : ∀ name constructor, allowed name constructor → allowed' name constructor)
    {ts : List Ty} (h : IsOverList allowed ts) : IsOverList allowed' ts := by
  cases ts with
  | nil => trivial
  | cons t ts => exact ⟨IsOver.mono hmono h.1, IsOverList.mono hmono h.2⟩

end

mutual

/-- Where no variable is bound, numbering anew can be left to what is put for the variables. -/
theorem rename_bind_of_isOver (ρ : Int → Int) (f : Int → Ty) {t : Ty} (h : t.IsOver allowed) :
    (t.bind f).rename ρ = t.bind fun x => (f x).rename ρ := by
  cases t with
  | blank | prim | nat | tag | var => rfl
  | data name constructor args =>
      simp only [bind, rename, renameList_bindList_of_isOverList ρ f h.2]
  | fn a b =>
      simp only [bind, rename, rename_bind_of_isOver ρ f h.1, rename_bind_of_isOver ρ f h.2]
  | poly id body => exact h.elim

theorem renameList_bindList_of_isOverList (ρ : Int → Int) (f : Int → Ty) {ts : List Ty}
    (h : IsOverList allowed ts) :
    renameList ρ (bindList f ts) = bindList (fun x => (f x).rename ρ) ts := by
  cases ts with
  | nil => rfl
  | cons t ts =>
      simp only [bindList, renameList, rename_bind_of_isOver ρ f h.1,
        renameList_bindList_of_isOverList ρ f h.2]

end

/-- A property of types that passes to their parts, to their variables, and to what comes of putting
types with the property for the variables. -/
structure Hereditary (P : Ty → Prop) : Prop where
  var : ∀ {t : Ty} {x : Int}, P t → x ∈ t.freeOccurrences → P (.var x)
  data : ∀ {name constructor : String} {args : List Ty}, P (.data name constructor args) →
    ∀ a ∈ args, P a
  fn : ∀ {a b : Ty}, P (.fn a b) → P a ∧ P b
  bind : ∀ {t : Ty} {f : Int → Ty}, P t → (∀ x ∈ t.freeOccurrences, P (f x)) → P (t.bind f)

theorem isOverList_iff {ts : List Ty} : IsOverList allowed ts ↔ ∀ t ∈ ts, t.IsOver allowed := by
  induction ts with
  | nil => simp [IsOverList]
  | cons t ts ih => rw [IsOverList, ih, List.forall_mem_cons]

theorem hereditary_isOver (allowed : String → String → Prop) :
    Hereditary fun t => t.IsOver allowed where
  var _ _ := trivial
  data h := isOverList_iff.1 h.2
  fn h := h
  bind {t f} ht hf := by
    -- what is put for other variables does not matter
    have hsame : t.bind f = t.bind fun x => if x ∈ t.freeOccurrences then f x else .var x :=
      bind_congr fun x hx => (if_pos hx).symm
    rw [hsame]
    refine isOver_bind (fun x => ?_) ht
    split
    · rename_i hx
      exact hf x hx
    · trivial

end Ty

namespace Subst

theorem get?_compose (s next : Subst) (x : Int) :
    (s.compose next).get? x = ((s.get? x).map next.apply).or (next.get? x) := by
  unfold compose
  split
  · rename_i h
    have hnext : next.apply = id := by
      funext t
      simp [apply, h]
    rw [hnext, Option.map_id, SortedMap.get?_eq_none_of_isEmpty h, Option.or_none]
    rfl
  · split
    · rename_i h
      rw [SortedMap.get?_eq_none_of_isEmpty h, Option.map_none, Option.none_or]
    · rw [SortedMap.get?_union, SortedMap.get?_mapValues]

/-- One substitution is another with the variables numbered anew. -/
def RenamedTo (ρ : Equiv.Perm Int) (s s' : Subst) : Prop :=
  ∀ x, s'.get? (ρ x) = (s.get? x).map (·.rename ρ)

/-- What a substitution puts is over some data types. -/
def IsOver (allowed : String → String → Prop) (s : Subst) : Prop :=
  ∀ x, (s.image x).IsOver allowed

variable {ρ : Equiv.Perm Int} {allowed : String → String → Prop} {s s' next next' : Subst}

theorem renamedTo_empty : RenamedTo ρ ∅ ∅ := fun _ => rfl

theorem isOver_empty : IsOver allowed ∅ := fun _ => trivial

theorem RenamedTo.insert (h : RenamedTo ρ s s') (x : Int) (t : Ty) :
    RenamedTo ρ (SortedMap.insert s x t) (SortedMap.insert s' (ρ x) (t.rename ρ)) := by
  intro y
  rw [SortedMap.get?_insert, SortedMap.get?_insert]
  by_cases hy : x = y
  · rw [if_pos hy, if_pos (congrArg ρ hy), Option.map_some]
  · rw [if_neg hy, if_neg (ρ.injective.ne hy), h y]

theorem IsOver.insert (h : IsOver allowed s) (x : Int) {t : Ty} (ht : t.IsOver allowed) :
    IsOver allowed (SortedMap.insert s x t) := by
  intro y
  rw [image, SortedMap.get?_insert]
  split
  · exact ht
  · exact h y

theorem RenamedTo.image_eq (h : RenamedTo ρ s s') (x : Int) :
    s'.image (ρ x) = (s.image x).rename ρ := by
  rw [image, h x, image]
  cases s.get? x <;> rfl

theorem RenamedTo.apply_rename (h : RenamedTo ρ s s') (t : Ty) :
    s'.apply (t.rename ρ) = (s.apply t).rename ρ := by
  rw [apply_eq_bind, apply_eq_bind, Ty.rename_bind]
  refine Ty.bind_congr fun x _ => ?_
  rw [← h.image_eq, Equiv.apply_symm_apply]

theorem IsOver.apply (h : IsOver allowed s) {t : Ty} (ht : t.IsOver allowed) :
    (s.apply t).IsOver allowed := by
  rw [apply_eq_bind]
  exact Ty.isOver_bind h ht

/-- What a substitution puts has a property. -/
def Puts (P : Ty → Prop) (s : Subst) : Prop := ∀ x t, s.get? x = some t → P t

theorem puts_empty (P : Ty → Prop) : Puts P ∅ := fun _ _ h => by cases h

theorem puts_singleton {P : Ty → Prop} {x : Int} {t : Ty} (h : P t) : Puts P (singleton x t) := by
  intro y u hu
  rw [singleton, SortedMap.get?_insert] at hu
  split at hu
  · exact Option.some.inj hu ▸ h
  · cases hu

theorem Puts.isOver (h : s.Puts fun t => t.IsOver allowed) : s.IsOver allowed := by
  intro x
  rw [image]
  cases hget : s.get? x with
  | none => trivial
  | some t => exact h x t hget

theorem Puts.apply {P : Ty → Prop} (hP : Ty.Hereditary P) (h : s.Puts P) {t : Ty} (ht : P t) :
    P (s.apply t) := by
  rw [apply_eq_bind]
  refine hP.bind ht fun x hx => ?_
  rw [image]
  cases hget : s.get? x with
  | none => exact hP.var ht hx
  | some u => exact h x u hget

theorem RenamedTo.compose (h : RenamedTo ρ s s') (hn : RenamedTo ρ next next') :
    RenamedTo ρ (s.compose next) (s'.compose next') := by
  intro x
  rw [get?_compose, get?_compose, h x, hn x]
  cases s.get? x with
  | some t => simp [hn.apply_rename]
  | none => rfl

theorem Puts.compose {P : Ty → Prop} (hP : Ty.Hereditary P) (h : s.Puts P) (hn : next.Puts P) :
    (s.compose next).Puts P := by
  intro x t ht
  rw [get?_compose] at ht
  cases hget : s.get? x with
  | none =>
      rw [hget] at ht
      exact hn x t ht
  | some u =>
      rw [hget] at ht
      exact Option.some.inj ht ▸ hn.apply hP (h x u hget)

theorem IsOver.compose (h : IsOver allowed s) (hn : IsOver allowed next) :
    IsOver allowed (s.compose next) := by
  intro x
  rw [image_compose]
  exact hn.apply (h x)

theorem isIdempotent_iff : s.isIdempotent = true ↔
    ∀ x t, s.get? x = some t → Ty.same (s.apply t) t = true := by
  rw [isIdempotent, List.all_eq_true]
  exact ⟨fun h x t ht => h (x, t) ((SortedMap.get?_eq_some_iff s x t).1 ht),
    fun h e he => h e.1 e.2 ((SortedMap.get?_eq_some_iff s e.1 e.2).2 he)⟩

theorem RenamedTo.isIdempotent_eq (h : RenamedTo ρ s s') : s'.isIdempotent = s.isIdempotent := by
  rw [Bool.eq_iff_iff, isIdempotent_iff, isIdempotent_iff]
  constructor
  · intro hs x t ht
    rw [← Ty.same_rename (ρ := ρ), ← h.apply_rename]
    exact hs (ρ x) _ (by rw [h x, ht, Option.map_some])
  · intro hs y t' ht'
    obtain ⟨x, rfl⟩ := ρ.surjective y
    rw [h x, Option.map_eq_some_iff] at ht'
    obtain ⟨t, ht, rfl⟩ := ht'
    rw [h.apply_rename, Ty.same_rename]
    exact hs x t ht

end Subst

namespace UnifyError

/-- Numbers the variables in a fault anew. -/
def rename (f : Int → Int) : UnifyError → UnifyError
  | .mismatch expected actual => .mismatch (expected.rename f) (actual.rename f)
  | .arity expected actual constructor => .arity (expected.rename f) (actual.rename f) constructor
  | .occurs id t => .occurs (f id) (t.rename f)
  | .quantified => .quantified

end UnifyError

namespace Ty

variable {ρ : Equiv.Perm Int} {P : Ty → Prop} {allowed : String → String → Prop}

/-- Two attempts to solve equations, the second with the variables numbered anew, come to the
same. -/
def SolvesAlike (ρ : Equiv.Perm Int) (P : Ty → Prop) {vs vs' : List Int} :
    Except UnifyError (Unifier vs) → Except UnifyError (Unifier vs') → Prop
  | .ok s, .ok s' => s.1.RenamedTo ρ s'.1 ∧ s.1.Puts P
  | .error e, .error e' => e' = e.rename ρ
  | _, _ => False

theorem SolvesAlike.exists_ok {vs vs' : List Int} {s : Unifier vs}
    {result : Except UnifyError (Unifier vs')} (h : SolvesAlike ρ P (.ok s) result) :
    ∃ s', result = .ok s' ∧ s.1.RenamedTo ρ s'.1 ∧ s.1.Puts P := by
  cases result with
  | ok s' => exact ⟨s', rfl, h⟩
  | error e => exact h.elim

theorem SolvesAlike.eq_error {vs vs' : List Int} {e : UnifyError}
    {result : Except UnifyError (Unifier vs')}
    (h : SolvesAlike ρ P (.error e : Except _ (Unifier vs)) result) :
    result = .error (e.rename ρ) := by
  cases result with
  | ok s => exact h.elim
  | error e' => exact congrArg _ h

theorem bindVar_renamed {vs vs' : List Int} {id : Int} {t : Ty} {hid : id ∈ vs}
    {ht : ∀ y ∈ t.freeOccurrences, y ∈ vs} {hid' : ρ id ∈ vs'}
    {ht' : ∀ y ∈ (t.rename ρ).freeOccurrences, y ∈ vs'} (hP : P t) :
    SolvesAlike ρ P (bindVar vs id t hid ht) (bindVar vs' (ρ id) (t.rename ρ) hid' ht') := by
  have hsingle : (Subst.singleton id t).RenamedTo ρ (Subst.singleton (ρ id) (t.rename ρ)) ∧
      (Subst.singleton id t).Puts P :=
    ⟨Subst.renamedTo_empty.insert id t, Subst.puts_singleton hP⟩
  have hoccurs := occurs_rename (ρ := ρ) t id
  cases t with
  | var id' =>
      simp only [bindVar, rename, ρ.injective.eq_iff]
      split
      · exact ⟨Subst.renamedTo_empty, Subst.puts_empty P⟩
      · exact hsingle
  | _ =>
      simp only [rename] at hoccurs
      simp only [bindVar, rename, hoccurs]
      split
      · rfl
      · exact hsingle

theorem unifyAtoms_renamed {vs vs' : List Int} {a b : Ty} {equal : Bool} :
    SolvesAlike ρ P (unifyAtoms vs a b equal)
      (unifyAtoms vs' (a.rename ρ) (b.rename ρ) equal) := by
  unfold unifyAtoms
  split
  · exact ⟨Subst.renamedTo_empty, Subst.puts_empty P⟩
  · rfl

theorem unifyWithin_renamed_both (hP : Hereditary P) :
    (∀ a b : Ty, P a → P b →
      SolvesAlike ρ P (unifyWithin a b) (unifyWithin (a.rename ρ) (b.rename ρ))) ∧
    ∀ (vs : List Int) (s : Unifier vs) (as bs : List Ty)
      (has : ∀ x ∈ freeOccurrencesList as, x ∈ vs) (hbs : ∀ x ∈ freeOccurrencesList bs, x ∈ vs),
      (∀ a ∈ as, P a) → (∀ b ∈ bs, P b) → s.1.Puts P →
      ∀ vs' (s' : Unifier vs') has' hbs', s.1.RenamedTo ρ s'.1 →
        SolvesAlike ρ P (unifyListWithin vs s as bs has hbs)
          (unifyListWithin vs' s' (renameList ρ as) (renameList ρ bs) has' hbs') := by
  refine unifyWithin.mutual_induct
    (fun a b => P a → P b →
      SolvesAlike ρ P (unifyWithin a b) (unifyWithin (a.rename ρ) (b.rename ρ)))
    (fun vs s as bs has hbs => (∀ a ∈ as, P a) → (∀ b ∈ bs, P b) →
      s.1.Puts P → ∀ vs' (s' : Unifier vs') has' hbs', s.1.RenamedTo ρ s'.1 →
        SolvesAlike ρ P (unifyListWithin vs s as bs has hbs)
          (unifyListWithin vs' s' (renameList ρ as) (renameList ρ bs) has' hbs'))
    ?blank ?varLeft ?varRight ?polyLeft ?polyRight ?prim ?nat ?tag ?heads ?lengths ?data
    ?fnDomain ?fnCodomain ?fn ?other ?listError ?listCons ?listEnd
  case blank =>
    intro _ _
    simp only [rename, unifyWithin]
    exact ⟨Subst.renamedTo_empty, Subst.puts_empty P⟩
  case varLeft =>
    intro id b _ hb
    simp only [rename, unifyWithin]
    exact bindVar_renamed hb
  case varRight =>
    intro a id hvar ha _
    rw [unifyWithin, rename, unifyWithin]
    · exact bindVar_renamed ha
    · cases a <;> simp_all [rename]
    · exact hvar
  case polyLeft =>
    intro b id body hvar _ _
    cases b with
    | var x => exact (hvar x rfl).elim
    | _ =>
        simp only [rename, unifyWithin]
        rfl
  case polyRight =>
    intro a id body hvar hpoly _ _
    cases a with
    | var x => exact (hvar x rfl).elim
    | poly x t => exact (hpoly x t rfl).elim
    | _ =>
        simp only [rename, unifyWithin]
        rfl
  case prim =>
    intro k k' _ _
    simp only [rename, unifyWithin]
    exact unifyAtoms_renamed
  case nat =>
    intro n n' _ _
    simp only [rename, unifyWithin]
    exact unifyAtoms_renamed
  case tag =>
    intro t t' _ _
    simp only [rename, unifyWithin]
    exact unifyAtoms_renamed
  case heads =>
    intro n c as n' c' bs hne _ _
    simp only [rename, unifyWithin, if_pos hne]
    rfl
  case lengths =>
    intro n c as n' c' bs heads hlen _ _
    simp only [rename, unifyWithin, if_neg heads, renameList_eq_map, List.length_map, if_pos hlen]
    simp [SolvesAlike, UnifyError.rename, rename, renameList_eq_map]
  case data =>
    intro n c as n' c' bs heads hlen ih ha hb
    have hlen' : ¬(renameList ρ as).length ≠ (renameList ρ bs).length := by
      simpa only [renameList_eq_map, List.length_map] using hlen
    simp only [rename, unifyWithin, if_neg heads, if_neg hlen, if_neg hlen']
    exact ih (hP.data ha) (hP.data hb) (Subst.puts_empty P) _ _ _ _ Subst.renamedTo_empty
  case fnDomain =>
    intro a₁ a₂ b₁ b₂ e he ih ha hb
    have h := ih (hP.fn ha).1 (hP.fn hb).1
    rw [he] at h
    simp only [rename, unifyWithin, he, h.eq_error]
    rfl
  case fnCodomain =>
    intro a₁ a₂ b₁ b₂ s₁ hs₁ _ e he ih₁ ih₂ ha hb
    have h₁ := ih₁ (hP.fn ha).1 (hP.fn hb).1
    rw [hs₁] at h₁
    obtain ⟨s₁', hs₁', hrenamed, hputs⟩ := h₁.exists_ok
    have h₂ := ih₂ (hputs.apply hP (hP.fn ha).2) (hputs.apply hP (hP.fn hb).2)
    rw [he, ← hrenamed.apply_rename, ← hrenamed.apply_rename] at h₂
    simp only [rename, unifyWithin, hs₁, he, hs₁', h₂.eq_error]
    rfl
  case fn =>
    intro a₁ a₂ b₁ b₂ s₁ hs₁ _ s₂ hs₂ ih₁ ih₂ ha hb
    have h₁ := ih₁ (hP.fn ha).1 (hP.fn hb).1
    rw [hs₁] at h₁
    obtain ⟨s₁', hs₁', hrenamed, hputs⟩ := h₁.exists_ok
    have h₂ := ih₂ (hputs.apply hP (hP.fn ha).2) (hputs.apply hP (hP.fn hb).2)
    rw [hs₂, ← hrenamed.apply_rename, ← hrenamed.apply_rename] at h₂
    obtain ⟨s₂', hs₂', hrenamed₂, hputs₂⟩ := h₂.exists_ok
    simp only [rename, unifyWithin, hs₁, hs₂, hs₁', hs₂']
    exact ⟨hrenamed.compose hrenamed₂, hputs.compose hP hputs₂⟩
  case other =>
    intro a b hblank hvar hvar' hpoly hpoly' hprim hnat htag hdata hfn ha hb
    rw [unifyWithin, unifyWithin]
    · rfl
    · exact fun x h => hvar _ (eq_of_rename_eq h)
    · exact fun x t h => hpoly _ _ (eq_of_rename_eq h)
    · exact fun x h => hvar' _ (eq_of_rename_eq h)
    · exact fun x t h => hpoly' _ _ (eq_of_rename_eq h)
    · exact fun h h' => hblank (eq_of_rename_eq h) (eq_of_rename_eq h')
    · exact fun k k' h h' => hprim _ _ (eq_of_rename_eq h) (eq_of_rename_eq h')
    · exact fun n n' h h' => hnat _ _ (eq_of_rename_eq h) (eq_of_rename_eq h')
    · exact fun t t' h h' => htag _ _ (eq_of_rename_eq h) (eq_of_rename_eq h')
    · exact fun n c as n' c' bs h h' =>
        hdata _ _ _ _ _ _ (eq_of_rename_eq h) (eq_of_rename_eq h')
    · exact fun a₁ a₂ b₁ b₂ h h' => hfn _ _ _ _ (eq_of_rename_eq h) (eq_of_rename_eq h')
    all_goals assumption
  case listError =>
    intro vs s a as b bs has hbs ha hb e he _ _ ih has' hbs' hs vs' s' _ _ hrenamed
    rw [List.forall_mem_cons] at has' hbs'
    have h := ih (hs.apply hP has'.1) (hs.apply hP hbs'.1)
    rw [he, ← hrenamed.apply_rename, ← hrenamed.apply_rename] at h
    simp only [renameList, unifyListWithin, he, h.eq_error]
    rfl
  case listCons =>
    intro vs s a as b bs has hbs ha hb next hnext _ _ ih ihs has' hbs' hs vs' s' _ _ hrenamed
    rw [List.forall_mem_cons] at has' hbs'
    have h := ih (hs.apply hP has'.1) (hs.apply hP hbs'.1)
    rw [hnext, ← hrenamed.apply_rename, ← hrenamed.apply_rename] at h
    obtain ⟨next', hnext', hrenamed', hputs⟩ := h.exists_ok
    simp only [renameList, unifyListWithin, hnext, hnext']
    exact ihs has'.2 hbs'.2 (hs.compose hP hputs) _ _ _ _ (hrenamed.compose hrenamed')
  case listEnd =>
    intro vs s as bs has hbs _ _ hends _ _ hs vs' s' _ _ hrenamed
    cases as with
    | nil =>
        simp only [renameList, unifyListWithin]
        exact ⟨hrenamed, hs⟩
    | cons a as =>
        cases bs with
        | nil =>
            simp only [renameList, unifyListWithin]
            exact ⟨hrenamed, hs⟩
        | cons b bs => exact (hends a as b bs has hbs rfl rfl HEq.rfl HEq.rfl).elim

theorem unify_renamed_of_hereditary (hP : Hereditary P) {a b : Ty} (ha : P a) (hb : P b) :
    (∃ s s', unify a b = .ok s ∧ unify (a.rename ρ) (b.rename ρ) = .ok s' ∧ s.RenamedTo ρ s' ∧
      s.Puts P) ∨
    ∃ e, unify a b = .error e ∧ unify (a.rename ρ) (b.rename ρ) = .error (e.rename ρ) := by
  have h := (unifyWithin_renamed_both (ρ := ρ) hP).1 a b ha hb
  unfold unify
  cases hresult : unifyWithin a b with
  | ok s =>
      rw [hresult] at h
      obtain ⟨s', hs', hrenamed, hputs⟩ := h.exists_ok
      exact .inl ⟨s.1, s'.1, rfl, by rw [hs']; rfl, hrenamed, hputs⟩
  | error e =>
      rw [hresult] at h
      exact .inr ⟨e, rfl, by rw [h.eq_error]; rfl⟩

theorem puts_of_unify (hP : Hereditary P) {a b : Ty} (ha : P a) (hb : P b) {s : Subst}
    (h : unify a b = .ok s) : s.Puts P := by
  obtain ⟨s', -, hs', -, -, hputs⟩ | ⟨e, he, -⟩ :=
    unify_renamed_of_hereditary (ρ := Equiv.refl Int) hP ha hb
  · exact Except.ok.inj (h.symm.trans hs') ▸ hputs
  · cases h.symm.trans he

theorem unify_renamed {a b : Ty} (ha : a.IsOver allowed) (hb : b.IsOver allowed) :
    (∃ s s', unify a b = .ok s ∧ unify (a.rename ρ) (b.rename ρ) = .ok s' ∧ s.RenamedTo ρ s' ∧
      s.IsOver allowed) ∨
    ∃ e, unify a b = .error e ∧ unify (a.rename ρ) (b.rename ρ) = .error (e.rename ρ) := by
  obtain ⟨s, s', hs, hs', hrenamed, hputs⟩ | h :=
    unify_renamed_of_hereditary (ρ := ρ) (hereditary_isOver allowed) ha hb
  · exact .inl ⟨s, s', hs, hs', hrenamed, hputs.isOver⟩
  · exact .inr h

theorem toBool_unifyList_renamed {as bs : List Ty} (has : IsOverList allowed as)
    (hbs : IsOverList allowed bs) :
    (unifyList (renameList ρ as) (renameList ρ bs)).toBool = (unifyList as bs).toBool := by
  unfold unifyList
  have h := (unifyWithin_renamed_both (ρ := ρ) (hereditary_isOver allowed)).2
    (freeOccurrencesList as ++ freeOccurrencesList bs) ⟨∅, Subst.confined_empty _⟩ as bs
    (by simp +contextual) (by simp +contextual) (isOverList_iff.1 has) (isOverList_iff.1 hbs)
    (Subst.puts_empty _) (freeOccurrencesList (renameList ρ as) ++ freeOccurrencesList (renameList ρ bs))
    ⟨∅, Subst.confined_empty _⟩ (by simp +contextual) (by simp +contextual) Subst.renamedTo_empty
  cases hresult : unifyListWithin (freeOccurrencesList as ++ freeOccurrencesList bs)
      ⟨∅, Subst.confined_empty _⟩ as bs (by simp +contextual) (by simp +contextual) with
  | ok s =>
      rw [hresult] at h
      obtain ⟨s', hs', -, -⟩ := h.exists_ok
      rw [hs']
      rfl
  | error e =>
      rw [hresult] at h
      rw [h.eq_error]
      rfl

end Ty

end Formulary
