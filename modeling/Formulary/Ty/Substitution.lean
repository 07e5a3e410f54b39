import Formulary.SortedMap
import Formulary.Ty.Printing

/-!
Substitutions of types for variables. Replacing stops at a variable that a type binds itself.
-/

namespace Formulary

namespace Ty

mutual

/-- Replaces the free variables of a type. -/
def bind (f : Int → Ty) : Ty → Ty
  | .blank => .blank
  | .prim kind => .prim kind
  | .nat value => .nat value
  | .tag value => .tag value
  | .var id => f id
  | .data name constructor args => .data name constructor (bindList f args)
  | .fn a b => .fn (a.bind f) (b.bind f)
  | .poly id body => .poly id (body.bind fun x => if x = id then .var x else f x)

def bindList (f : Int → Ty) : List Ty → List Ty
  | [] => []
  | t :: ts => t.bind f :: bindList f ts

end

mutual

theorem bind_var (t : Ty) : t.bind .var = t := by
  cases t with
  | blank | prim | nat | tag | var => rfl
  | data name constructor args => simp only [bind, bindList_var args]
  | fn a b => simp only [bind, bind_var a, bind_var b]
  | poly id body => simp only [bind, ite_self, bind_var body]

theorem bindList_var (ts : List Ty) : bindList .var ts = ts := by
  cases ts with
  | nil => rfl
  | cons t ts => simp only [bindList, bind_var t, bindList_var ts]

end

mutual

/-- Every free variable of the result comes from the image of a free variable. -/
theorem mem_freeOccurrences_bind {f : Int → Ty} {t : Ty} {y : Int}
    (h : y ∈ (t.bind f).freeOccurrences) :
    ∃ x ∈ t.freeOccurrences, y ∈ (f x).freeOccurrences := by
  match t with
  | .blank | .prim _ | .nat _ | .tag _ => simp [bind, freeOccurrences] at h
  | .var id => exact ⟨id, by simp [freeOccurrences], h⟩
  | .data name constructor args => exact mem_freeOccurrencesList_bindList h
  | .fn a b =>
    simp only [bind, freeOccurrences, List.mem_append] at h ⊢
    rcases h with h | h
    · obtain ⟨x, hx, hy⟩ := mem_freeOccurrences_bind h
      exact ⟨x, .inl hx, hy⟩
    · obtain ⟨x, hx, hy⟩ := mem_freeOccurrences_bind h
      exact ⟨x, .inr hx, hy⟩
  | .poly id body =>
    simp only [bind, freeOccurrences, List.mem_filter, decide_eq_true_eq] at h ⊢
    obtain ⟨x, hx, hy⟩ := mem_freeOccurrences_bind h.1
    by_cases hid : x = id
    · simp only [hid, if_true, freeOccurrences, List.mem_singleton] at hy
      exact absurd hy h.2
    · rw [if_neg hid] at hy
      exact ⟨x, ⟨hx, hid⟩, hy⟩

theorem mem_freeOccurrencesList_bindList {f : Int → Ty} {ts : List Ty} {y : Int}
    (h : y ∈ freeOccurrencesList (bindList f ts)) :
    ∃ x ∈ freeOccurrencesList ts, y ∈ (f x).freeOccurrences := by
  match ts with
  | [] => simp [bindList, freeOccurrencesList] at h
  | t :: ts =>
    simp only [bindList, freeOccurrencesList, List.mem_append] at h ⊢
    rcases h with h | h
    · obtain ⟨x, hx, hy⟩ := mem_freeOccurrences_bind h
      exact ⟨x, .inl hx, hy⟩
    · obtain ⟨x, hx, hy⟩ := mem_freeOccurrencesList_bindList h
      exact ⟨x, .inr hx, hy⟩

end

end Ty

/-- A finite map from variables to types. -/
abbrev Subst := SortedMap Int Ty

namespace Subst

def singleton (id : Int) (t : Ty) : Subst := (∅ : Subst).insert id t

/-- What a substitution puts for a variable. -/
def image (s : Subst) (id : Int) : Ty := (s.get? id).getD (.var id)

def apply (s : Subst) (t : Ty) : Ty := if s.isEmpty then t else t.bind s.image

/-- The substitution that applies `s` and then `next`. -/
def compose (s next : Subst) : Subst :=
  if next.isEmpty then s
  else if s.isEmpty then next
  else (s.mapValues next.apply).union next

/-- Whether a variable is bound to no type at all. Nothing can be read there. -/
def lacks (s : Subst) (id : Int) : Bool := s.image id matches .blank

/-- Applies a substitution whose bindings are looked up, if what is looked up is there. -/
def applied? (s : Subst) (t : Ty) : Option Ty :=
  if s.isEmpty || !t.freeOccurrences.any s.lacks then some (s.apply t) else none

/-- Composes two substitutions whose bindings are looked up, if what is looked up is there. If one
of them is empty, nothing is. -/
def composed? (s next : Subst) : Option Subst :=
  if next.isEmpty || s.isEmpty || !next.keys.any next.lacks &&
      s.entries.all fun (id, t) => !s.lacks id && (next.applied? t).isSome then
    some (s.compose next)
  else none

/-- Whether applying the substitution to what it puts changes nothing. -/
def isIdempotent (s : Subst) : Bool :=
  s.entries.all fun (_, t) => Ty.same (s.apply t) t

def render (s : Subst) : String :=
  "\x7b" ++ ", ".intercalate (s.entries.map fun (id, t) =>
    Ty.rawName id ++ " := " ++ t.renderRaw) ++ "\x7d"

theorem image_of_isEmpty {s : Subst} (h : s.isEmpty = true) : s.image = .var := by
  funext id
  simp [image, SortedMap.get?_eq_none_of_isEmpty h]

theorem apply_eq_bind (s : Subst) (t : Ty) : s.apply t = t.bind s.image := by
  unfold apply
  split
  · rename_i h
    rw [image_of_isEmpty h, Ty.bind_var]
  · rfl

theorem apply_var (s : Subst) (id : Int) : s.apply (.var id) = s.image id := by
  simp [apply_eq_bind, Ty.bind]

/-- Composition is application one after the other on every variable. -/
theorem image_compose (s next : Subst) (id : Int) :
    (s.compose next).image id = next.apply (s.image id) := by
  unfold compose
  split
  · rename_i h
    simp only [apply, h, if_true]
  · split
    · rename_i hs
      rw [image_of_isEmpty hs, apply_var]
    · simp only [image, SortedMap.get?_union, SortedMap.get?_mapValues]
      cases hget : s.get? id with
      | some t => rfl
      | none =>
        simp only [Option.map_none, Option.none_or, Option.getD_none, apply_var]
        rfl

theorem compose_empty (s : Subst) : s.compose ∅ = s := rfl

theorem image_singleton (id : Int) (t : Ty) (x : Int) :
    (singleton id t).image x = if id = x then t else .var x := by
  simp only [image, singleton, SortedMap.get?_insert]
  split <;> simp

end Subst

end Formulary
