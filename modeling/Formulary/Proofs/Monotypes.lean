import Formulary.Ty.Substitution
import Mathlib

namespace Formulary.Ty

mutual

/-- Whether a type binds no variable and lacks no part. -/
def isMono : Ty → Bool
  | .blank | .poly _ _ => false
  | .prim _ | .nat _ | .tag _ | .var _ => true
  | .data _ _ args => isMonoList args
  | .fn a b => a.isMono && b.isMono

def isMonoList : List Ty → Bool
  | [] => true
  | t :: ts => t.isMono && isMonoList ts

end

mutual

/-- Whether a type binds no variable. It may lack parts. -/
def isQuantifierFree : Ty → Bool
  | .poly _ _ => false
  | .blank | .prim _ | .nat _ | .tag _ | .var _ => true
  | .data _ _ args => isQuantifierFreeList args
  | .fn a b => a.isQuantifierFree && b.isQuantifierFree

def isQuantifierFreeList : List Ty → Bool
  | [] => true
  | t :: ts => t.isQuantifierFree && isQuantifierFreeList ts

end

mutual

theorem isQuantifierFree_of_isMono {t : Ty} (h : t.isMono = true) : t.isQuantifierFree = true := by
  cases t with
  | blank | poly => cases h
  | prim | nat | tag | var => rfl
  | data name constructor args => exact isQuantifierFreeList_of_isMonoList h
  | fn a b =>
      simp only [isMono, Bool.and_eq_true] at h
      simp [isQuantifierFree, isQuantifierFree_of_isMono h.1, isQuantifierFree_of_isMono h.2]

theorem isQuantifierFreeList_of_isMonoList {ts : List Ty} (h : isMonoList ts = true) :
    isQuantifierFreeList ts = true := by
  match ts with
  | [] => rfl
  | t :: ts =>
      simp only [isMonoList, Bool.and_eq_true] at h
      simp [isQuantifierFreeList, isQuantifierFree_of_isMono h.1,
        isQuantifierFreeList_of_isMonoList h.2]

end

theorem isMonoList_iff {ts : List Ty} : isMonoList ts = true ↔ ∀ t ∈ ts, t.isMono = true := by
  induction ts with
  | nil => simp [isMonoList]
  | cons t ts ih => simp [isMonoList, ih]

theorem mem_freeOccurrencesList {ts : List Ty} {x : Int} :
    x ∈ freeOccurrencesList ts ↔ ∃ t ∈ ts, x ∈ t.freeOccurrences := by
  induction ts with
  | nil => simp [freeOccurrencesList]
  | cons t ts ih => simp [freeOccurrencesList, ih]

theorem bindList_eq_map (f : Int → Ty) (ts : List Ty) : bindList f ts = ts.map (·.bind f) := by
  induction ts with
  | nil => rfl
  | cons t ts ih => rw [bindList, ih, List.map_cons]

mutual

theorem eq_of_same {a b : Ty} (h : same a b = true) : a = b := by
  cases a with
  | blank => simp [same] at h
  | prim | nat | tag | var => cases b <;> simp_all [same]
  | data name constructor args =>
      cases b with
      | data name' constructor' args' =>
          simp only [same, Bool.and_eq_true, decide_eq_true_eq] at h
          rw [h.1.1, h.1.2, eq_of_sameList h.2]
      | _ => simp [same] at h
  | fn a₁ a₂ =>
      cases b with
      | fn b₁ b₂ =>
          simp only [same, Bool.and_eq_true] at h
          rw [eq_of_same h.1, eq_of_same h.2]
      | _ => simp [same] at h
  | poly id body =>
      cases b with
      | poly id' body' =>
          simp only [same, Bool.and_eq_true, decide_eq_true_eq] at h
          rw [h.1, eq_of_same h.2]
      | _ => simp [same] at h

theorem eq_of_sameList {as bs : List Ty} (h : sameList as bs = true) : as = bs := by
  match as, bs with
  | [], [] => rfl
  | [], b :: bs => simp [sameList] at h
  | a :: as, [] => simp [sameList] at h
  | a :: as, b :: bs =>
      simp only [sameList, Bool.and_eq_true] at h
      rw [eq_of_same h.1, eq_of_sameList h.2]

end

mutual

theorem same_self {t : Ty} (h : t.isMono = true) : same t t = true := by
  cases t with
  | blank | poly => simp [isMono] at h
  | prim | nat | tag | var => simp [same]
  | data name constructor args =>
      rw [isMono] at h
      simp [same, sameList_self h]
  | fn a b =>
      simp only [isMono, Bool.and_eq_true] at h
      simp [same, same_self h.1, same_self h.2]

theorem sameList_self {ts : List Ty} (h : isMonoList ts = true) : sameList ts ts = true := by
  match ts with
  | [] => rfl
  | t :: ts =>
      simp only [isMonoList, Bool.and_eq_true] at h
      simp [sameList, same_self h.1, sameList_self h.2]

end

mutual

/-- What is put for variables that do not occur does not matter. -/
theorem bind_congr {f g : Int → Ty} {t : Ty} (h : ∀ x ∈ t.freeOccurrences, f x = g x) :
    t.bind f = t.bind g := by
  cases t with
  | blank | prim | nat | tag => rfl
  | var id => exact h id (by simp [freeOccurrences])
  | data name constructor args =>
      rw [freeOccurrences] at h
      rw [bind, bind, bindList_congr h]
  | fn a b =>
      rw [bind, bind, bind_congr fun x hx => h x (by simp [freeOccurrences, hx]),
        bind_congr fun x hx => h x (by simp [freeOccurrences, hx])]
  | poly id body =>
      rw [bind, bind]
      congr 1
      refine bind_congr fun x hx => ?_
      by_cases hid : x = id
      · simp [hid]
      · simp only [hid, if_false]
        exact h x (by simp [freeOccurrences, hx, hid])

theorem bindList_congr {f g : Int → Ty} {ts : List Ty}
    (h : ∀ x ∈ freeOccurrencesList ts, f x = g x) : bindList f ts = bindList g ts := by
  match ts with
  | [] => rfl
  | t :: ts =>
      rw [bindList, bindList, bind_congr fun x hx => h x (by simp [freeOccurrencesList, hx]),
        bindList_congr fun x hx => h x (by simp [freeOccurrencesList, hx])]

end

/-- Replacing variables by themselves changes nothing. -/
theorem bind_eq_self {f : Int → Ty} {t : Ty} (h : ∀ x ∈ t.freeOccurrences, f x = .var x) :
    t.bind f = t := by
  rw [bind_congr h, bind_var]

mutual

/-- Replacing twice is replacing once. A type that binds variables could catch some. -/
theorem bind_bind_of_isQuantifierFree (f g : Int → Ty) {t : Ty} (h : t.isQuantifierFree = true) :
    (t.bind f).bind g = t.bind fun x => (f x).bind g := by
  cases t with
  | poly => cases h
  | blank | prim | nat | tag | var => rfl
  | data name constructor args =>
      rw [isQuantifierFree] at h
      simp only [bind]
      rw [bindList_bindList_of_isQuantifierFreeList f g h]
  | fn a b =>
      simp only [isQuantifierFree, Bool.and_eq_true] at h
      simp only [bind]
      rw [bind_bind_of_isQuantifierFree f g h.1, bind_bind_of_isQuantifierFree f g h.2]

theorem bindList_bindList_of_isQuantifierFreeList (f g : Int → Ty) {ts : List Ty}
    (h : isQuantifierFreeList ts = true) :
    bindList g (bindList f ts) = bindList (fun x => (f x).bind g) ts := by
  match ts with
  | [] => rfl
  | t :: ts =>
      simp only [isQuantifierFreeList, Bool.and_eq_true] at h
      simp only [bindList]
      rw [bind_bind_of_isQuantifierFree f g h.1, bindList_bindList_of_isQuantifierFreeList f g h.2]

end

theorem bind_bind (f g : Int → Ty) {t : Ty} (h : t.isMono = true) :
    (t.bind f).bind g = t.bind fun x => (f x).bind g :=
  bind_bind_of_isQuantifierFree f g (isQuantifierFree_of_isMono h)

mutual

theorem isMono_bind {f : Int → Ty} {t : Ty} (h : t.isMono = true)
    (hf : ∀ x ∈ t.freeOccurrences, (f x).isMono = true) : (t.bind f).isMono = true := by
  cases t with
  | blank | poly => simp [isMono] at h
  | prim | nat | tag => rfl
  | var id => exact hf id (by simp [freeOccurrences])
  | data name constructor args =>
      rw [isMono] at h
      exact isMonoList_bindList h hf
  | fn a b =>
      simp only [isMono, Bool.and_eq_true] at h
      simp only [bind, isMono, Bool.and_eq_true]
      exact ⟨isMono_bind h.1 fun x hx => hf x (by simp [freeOccurrences, hx]),
        isMono_bind h.2 fun x hx => hf x (by simp [freeOccurrences, hx])⟩

theorem isMonoList_bindList {f : Int → Ty} {ts : List Ty} (h : isMonoList ts = true)
    (hf : ∀ x ∈ freeOccurrencesList ts, (f x).isMono = true) :
    isMonoList (bindList f ts) = true := by
  match ts with
  | [] => rfl
  | t :: ts =>
      simp only [isMonoList, Bool.and_eq_true] at h
      simp only [bindList, isMonoList, Bool.and_eq_true]
      exact ⟨isMono_bind h.1 fun x hx => hf x (by simp [freeOccurrencesList, hx]),
        isMonoList_bindList h.2 fun x hx => hf x (by simp [freeOccurrencesList, hx])⟩

end

mutual

theorem mem_freeOccurrences_bind_of {f : Int → Ty} {t : Ty} (h : t.isMono = true) {x y : Int}
    (hx : x ∈ t.freeOccurrences) (hy : y ∈ (f x).freeOccurrences) :
    y ∈ (t.bind f).freeOccurrences := by
  cases t with
  | blank | poly => simp [isMono] at h
  | prim | nat | tag => simp [freeOccurrences] at hx
  | var id =>
      have : x = id := by simpa [freeOccurrences] using hx
      exact this ▸ hy
  | data name constructor args =>
      rw [isMono] at h
      exact mem_freeOccurrencesList_bindList_of h hx hy
  | fn a b =>
      simp only [isMono, Bool.and_eq_true] at h
      simp only [bind, freeOccurrences, List.mem_append] at hx ⊢
      rcases hx with hx | hx
      · exact .inl (mem_freeOccurrences_bind_of h.1 hx hy)
      · exact .inr (mem_freeOccurrences_bind_of h.2 hx hy)

theorem mem_freeOccurrencesList_bindList_of {f : Int → Ty} {ts : List Ty}
    (h : isMonoList ts = true) {x y : Int} (hx : x ∈ freeOccurrencesList ts)
    (hy : y ∈ (f x).freeOccurrences) : y ∈ freeOccurrencesList (bindList f ts) := by
  match ts with
  | [] => simp [freeOccurrencesList] at hx
  | t :: ts =>
      simp only [isMonoList, Bool.and_eq_true] at h
      simp only [bindList, freeOccurrencesList, List.mem_append] at hx ⊢
      rcases hx with hx | hx
      · exact .inl (mem_freeOccurrences_bind_of h.1 hx hy)
      · exact .inr (mem_freeOccurrencesList_bindList_of h.2 hx hy)

end

end Formulary.Ty
