import Formulary.Proofs.Scoping

namespace Formulary

/-- How an instance of a data type starts: its name, its constructor and how many arguments follow. -/
structure Ty.Head where
  name : String
  constructor : String
  arity : Nat
deriving DecidableEq

namespace Ty

mutual

/-- The heads of the instances of data types that occur in a type. -/
def heads : Ty → List Head
  | .blank | .prim _ | .nat _ | .tag _ | .var _ => []
  | .data name constructor args => ⟨name, constructor, args.length⟩ :: headsList args
  | .fn a b => a.heads ++ b.heads
  | .poly _ body => body.heads

def headsList : List Ty → List Head
  | [] => []
  | t :: ts => t.heads ++ headsList ts

end

theorem mem_headsList_iff {ts : List Ty} {h : Head} :
    h ∈ headsList ts ↔ ∃ t ∈ ts, h ∈ t.heads := by
  induction ts with
  | nil => simp [headsList]
  | cons t ts ih => simp [headsList, ih]

/-- All instances of data types in a type have heads of some kind. -/
def Formed (H : Head → Prop) (t : Ty) : Prop := ∀ h ∈ t.heads, H h

instance (H : Head → Prop) [DecidablePred H] (t : Ty) : Decidable (t.Formed H) :=
  inferInstanceAs (Decidable (∀ h ∈ t.heads, H h))

variable {H H' : Head → Prop}

theorem Formed.mono {t : Ty} (h : t.Formed H) (himp : ∀ h, H h → H' h) : t.Formed H' :=
  fun head hmem => himp head (h head hmem)

@[simp] theorem formed_blank : Ty.blank.Formed H := fun _ h => absurd h List.not_mem_nil

@[simp] theorem formed_prim (kind : PrimKind) : (Ty.prim kind).Formed H :=
  fun _ h => absurd h List.not_mem_nil

@[simp] theorem formed_nat (value : Int) : (Ty.nat value).Formed H :=
  fun _ h => absurd h List.not_mem_nil

@[simp] theorem formed_tag (value : Tag) : (Ty.tag value).Formed H :=
  fun _ h => absurd h List.not_mem_nil

@[simp] theorem formed_var (id : Int) : (Ty.var id).Formed H :=
  fun _ h => absurd h List.not_mem_nil

@[simp] theorem formed_data_iff {name constructor : String} {args : List Ty} :
    (Ty.data name constructor args).Formed H ↔
      H ⟨name, constructor, args.length⟩ ∧ ∀ t ∈ args, t.Formed H := by
  simp only [Formed, heads, List.forall_mem_cons, mem_headsList_iff]
  grind

@[simp] theorem formed_fn_iff {a b : Ty} : (Ty.fn a b).Formed H ↔ a.Formed H ∧ b.Formed H := by
  simp only [Formed, heads, List.forall_mem_append]

@[simp] theorem formed_poly_iff {id : Int} {body : Ty} :
    (Ty.poly id body).Formed H ↔ body.Formed H := Iff.rfl

theorem formed_scalar (h : H ⟨metaName, "Scalar", 0⟩) : Ty.scalar.Formed H :=
  formed_data_iff.2 ⟨h, List.forall_mem_nil _⟩

mutual

theorem Formed.bind {f : Int → Ty} {t : Ty} (h : t.Formed H) (hf : ∀ x, (f x).Formed H) :
    (t.bind f).Formed H := by
  match t with
  | .blank | .prim _ | .nat _ | .tag _ => exact h
  | .var id => exact hf id
  | .data name constructor args =>
      rw [formed_data_iff] at h
      rw [Ty.bind, formed_data_iff, bindList_eq_map, List.length_map, ← bindList_eq_map]
      exact ⟨h.1, formed_bindList h.2 hf⟩
  | .fn a b =>
      rw [formed_fn_iff] at h
      rw [Ty.bind, formed_fn_iff]
      exact ⟨h.1.bind hf, h.2.bind hf⟩
  | .poly id body =>
      rw [formed_poly_iff] at h
      rw [Ty.bind, formed_poly_iff]
      refine h.bind fun x => ?_
      split
      · exact formed_var x
      · exact hf x

theorem formed_bindList {f : Int → Ty} {ts : List Ty} (h : ∀ t ∈ ts, t.Formed H)
    (hf : ∀ x, (f x).Formed H) : ∀ t ∈ bindList f ts, t.Formed H := by
  match ts with
  | [] => exact List.forall_mem_nil _
  | t :: ts =>
      rw [List.forall_mem_cons] at h
      rw [bindList, List.forall_mem_cons]
      exact ⟨h.1.bind hf, formed_bindList h.2 hf⟩

end

theorem formed_curry_iff {ts : List Ty} {t : Ty} :
    (curry ts t).Formed H ↔ (∀ u ∈ ts, u.Formed H) ∧ t.Formed H := by
  induction ts with
  | nil => simp [curry]
  | cons u ts ih =>
      show (Ty.fn u (curry ts t)).Formed H ↔ _
      rw [formed_fn_iff, ih, List.forall_mem_cons, and_assoc]

theorem Formed.uncurry {t : Ty} (h : t.Formed H) :
    (∀ u ∈ t.uncurry.1, u.Formed H) ∧ t.uncurry.2.Formed H := by
  match t with
  | .fn a b =>
      rw [formed_fn_iff] at h
      exact ⟨List.forall_mem_cons.2 ⟨h.1, h.2.uncurry.1⟩, h.2.uncurry.2⟩
  | .blank | .prim _ | .nat _ | .tag _ | .var _ | .data _ _ _ | .poly _ _ =>
      exact ⟨List.forall_mem_nil _, h⟩

theorem formed_quantify_iff {ids : List Int} {t : Ty} :
    (quantify ids t).Formed H ↔ t.Formed H := by
  induction ids with
  | nil => exact Iff.rfl
  | cons id ids ih => exact ih

theorem formed_unquantify_iff {t : Ty} : t.unquantify.2.Formed H ↔ t.Formed H := by
  match t with
  | .poly id body => exact formed_unquantify_iff (t := body)
  | .blank | .prim _ | .nat _ | .tag _ | .var _ | .data _ _ _ | .fn _ _ => exact Iff.rfl

theorem formed_generalize_iff {t : Ty} {keep : Int → Bool} :
    (t.generalize keep).Formed H ↔ t.Formed H := formed_quantify_iff

end Ty

namespace Subst

variable {H : Ty.Head → Prop} {s next : Subst}

/-- What a substitution puts is formed of instances of some kind. -/
def Formed (H : Ty.Head → Prop) (s : Subst) : Prop := ∀ x t, s.get? x = some t → t.Formed H

theorem formed_empty : (∅ : Subst).Formed H := fun x t h => by simp at h

theorem formed_singleton {id : Int} {t : Ty} (h : t.Formed H) : (singleton id t).Formed H := by
  intro x u hget
  rw [singleton, SortedMap.get?_insert] at hget
  split at hget
  · exact Option.some.inj hget ▸ h
  · simp at hget

theorem Formed.image (h : s.Formed H) (x : Int) : (s.image x).Formed H := by
  rw [Subst.image]
  cases hget : s.get? x with
  | none => exact Ty.formed_var x
  | some t => exact h x t hget

theorem Formed.apply (h : s.Formed H) {t : Ty} (ht : t.Formed H) : (s.apply t).Formed H := by
  rw [apply_eq_bind]
  exact ht.bind h.image

theorem Formed.compose (h : s.Formed H) (hnext : next.Formed H) : (s.compose next).Formed H := by
  intro x t hget
  rw [← image_of_get?_eq_some hget, image_compose]
  exact hnext.apply (h.image x)

end Subst

namespace Ty

variable {H : Head → Prop}

theorem formed_freshen (ids : List Int) {s : Subst} (hs : s.Formed H) (u : Supply) :
    ((freshen ids s).run u).1.Formed H := by
  induction ids generalizing s u with
  | nil => exact hs
  | cons id ids ih =>
      rw [run_freshen_cons]
      refine ih (fun x t hget => ?_) _
      rw [SortedMap.get?_insert] at hget
      split at hget
      · exact Option.some.inj hget ▸ formed_var _
      · exact hs x t hget

theorem Formed.instantiate {t : Ty} (h : t.Formed H) (u : Supply) :
    (t.instantiate.run u).1.Formed H := by
  rw [run_instantiate]
  split
  · exact h
  · exact (formed_freshen _ Subst.formed_empty u).apply (formed_unquantify_iff.2 h)

end Ty

/-- An error other than that two instances have different numbers of arguments. -/
def UnifyError.IsAligned : UnifyError → Prop
  | .arity _ _ _ => False
  | .mismatch _ _ | .occurs _ _ | .quantified => True

namespace Ty

variable {H : Head → Prop}

/-- An instance has one number of arguments only. -/
def Head.Fixed (H : Head → Prop) : Prop :=
  ∀ name constructor m n, H ⟨name, constructor, m⟩ → H ⟨name, constructor, n⟩ → m = n

/-- What unification of formed types comes to. -/
abbrev Unified (H : Head → Prop) {vs : List Int} (r : Except UnifyError (Unifier vs)) : Prop :=
  Ends (fun s => s.1.Formed H) UnifyError.IsAligned r

theorem bindVar_unified {vs : List Int} {id : Int} {t : Ty} (hid : id ∈ vs)
    (hvars : ∀ y ∈ t.freeOccurrences, y ∈ vs) (ht : t.Formed H) :
    Unified H (bindVar vs id t hid hvars) := by
  unfold bindVar
  split
  · split
    · exact Subst.formed_empty
    · exact Subst.formed_singleton (formed_var _)
  · split
    · trivial
    · exact Subst.formed_singleton ht

theorem unifyAtoms_unified {vs : List Int} {a b : Ty} {equal : Bool} :
    Unified H (unifyAtoms vs a b equal) := by
  unfold unifyAtoms
  split
  · exact Subst.formed_empty
  · trivial

theorem unifyWithin_unified_both (hfixed : Head.Fixed H) :
    (∀ a b : Ty, a.Formed H → b.Formed H → Unified H (unifyWithin a b)) ∧
    ∀ (vs : List Int) (s : Unifier vs) (as bs : List Ty)
      (has : ∀ x ∈ freeOccurrencesList as, x ∈ vs) (hbs : ∀ x ∈ freeOccurrencesList bs, x ∈ vs),
      (∀ t ∈ as, t.Formed H) → (∀ t ∈ bs, t.Formed H) → s.1.Formed H →
        Unified H (unifyListWithin vs s as bs has hbs) := by
  refine unifyWithin.mutual_induct
    (fun a b => a.Formed H → b.Formed H → Unified H (unifyWithin a b))
    (fun vs s as bs has hbs => (∀ t ∈ as, t.Formed H) → (∀ t ∈ bs, t.Formed H) →
      s.1.Formed H → Unified H (unifyListWithin vs s as bs has hbs))
    ?blank ?varLeft ?varRight ?polyLeft ?polyRight ?prim ?nat ?tag ?heads ?lengths ?data
    ?fnDomain ?fnCodomain ?fn ?other ?listError ?listCons ?listEnd
  case blank =>
    intro _ _
    rw [unifyWithin]
    exact Subst.formed_empty
  case varLeft =>
    intro id b _ hb
    rw [unifyWithin]
    exact bindVar_unified _ _ hb
  case varRight =>
    intro a id hvar ha _
    rw [unifyWithin]
    · exact bindVar_unified _ _ ha
    · exact hvar
  case polyLeft =>
    intro id body b hvar _ _
    rw [unifyWithin]
    · trivial
    · exact hvar
  case polyRight =>
    intro a id body hvar hpoly _ _
    rw [unifyWithin]
    · trivial
    all_goals assumption
  case prim =>
    intro k k' _ _
    rw [unifyWithin]
    exact unifyAtoms_unified
  case nat =>
    intro n n' _ _
    rw [unifyWithin]
    exact unifyAtoms_unified
  case tag =>
    intro t t' _ _
    rw [unifyWithin]
    exact unifyAtoms_unified
  case heads =>
    intro n c as n' c' bs hne _ _
    rw [unifyWithin, if_pos hne]
    trivial
  case lengths =>
    intro n c as n' c' bs heads hlen ha hb
    obtain ⟨rfl, rfl⟩ : n = n' ∧ c = c' := by
      simpa [not_or] using heads
    exact absurd (hfixed _ _ _ _ (formed_data_iff.1 ha).1 (formed_data_iff.1 hb).1) hlen
  case data =>
    intro n c as n' c' bs heads hlen ih ha hb
    rw [unifyWithin, if_neg heads, if_neg hlen]
    exact ih (formed_data_iff.1 ha).2 (formed_data_iff.1 hb).2 Subst.formed_empty
  case fnDomain =>
    intro a₁ a₂ b₁ b₂ e he ih ha hb
    have h := ih (formed_fn_iff.1 ha).1 (formed_fn_iff.1 hb).1
    rw [he] at h
    rw [unifyWithin, he]
    exact h
  case fnCodomain =>
    intro a₁ a₂ b₁ b₂ s₁ hs₁ _ e he ih₁ ih₂ ha hb
    rw [formed_fn_iff] at ha hb
    have h₁ := ih₁ ha.1 hb.1
    rw [hs₁] at h₁
    have h₂ := ih₂ (Subst.Formed.apply h₁ ha.2) (Subst.Formed.apply h₁ hb.2)
    rw [he] at h₂
    simp only [unifyWithin, hs₁, he]
    exact h₂
  case fn =>
    intro a₁ a₂ b₁ b₂ s₁ hs₁ _ s₂ hs₂ ih₁ ih₂ ha hb
    rw [formed_fn_iff] at ha hb
    have h₁ := ih₁ ha.1 hb.1
    rw [hs₁] at h₁
    have h₂ := ih₂ (Subst.Formed.apply h₁ ha.2) (Subst.Formed.apply h₁ hb.2)
    rw [hs₂] at h₂
    simp only [unifyWithin, hs₁, hs₂]
    exact Subst.Formed.compose h₁ h₂
  case other =>
    intro a b hblank hvar hvar' hpoly hpoly' hprim hnat htag hdata hfn _ _
    rw [unifyWithin]
    · trivial
    all_goals assumption
  case listError =>
    intro vs s a as b bs has hbs ha hb e he _ _ ih hformed hformed' hs
    rw [List.forall_mem_cons] at hformed hformed'
    have h := ih (hs.apply hformed.1) (hs.apply hformed'.1)
    rw [he] at h
    simp only [unifyListWithin, he]
    exact h
  case listCons =>
    intro vs s a as b bs has hbs ha hb next hnext _ _ ih ihs hformed hformed' hs
    rw [List.forall_mem_cons] at hformed hformed'
    have h := ih (hs.apply hformed.1) (hs.apply hformed'.1)
    rw [hnext] at h
    simp only [unifyListWithin, hnext]
    exact ihs hformed.2 hformed'.2 (Subst.Formed.compose hs h)
  case listEnd =>
    intro vs s as bs has hbs _ _ hends _ _ hs
    rw [unifyListWithin]
    · exact hs
    · intro a as b bs has hbs hcons hcons'
      exact hends a as b bs has hbs hcons hcons'

theorem ends_map {ε α β : Type} {p : α → Prop} {p' : β → Prop} {q : ε → Prop} {r : Except ε α}
    {f : α → β} (h : Ends p q r) (hp : ∀ a, p a → p' (f a)) : Ends p' q (r.map f) := by
  cases r with
  | ok a => exact hp a h
  | error e => exact h

theorem unify_ends (hfixed : Head.Fixed H) {a b : Ty} (ha : a.Formed H) (hb : b.Formed H) :
    Ends (Subst.Formed H) UnifyError.IsAligned (unify a b) :=
  ends_map ((unifyWithin_unified_both hfixed).1 a b ha hb) fun _ hs => hs

theorem unifyList_ends (hfixed : Head.Fixed H) {as bs : List Ty} (has : ∀ t ∈ as, t.Formed H)
    (hbs : ∀ t ∈ bs, t.Formed H) :
    Ends (Subst.Formed H) UnifyError.IsAligned (unifyList as bs) :=
  ends_map ((unifyWithin_unified_both hfixed).2 _ _ as bs _ _ has hbs Subst.formed_empty)
    fun _ hs => hs

end Ty

end Formulary
