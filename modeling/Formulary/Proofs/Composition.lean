import Formulary.Proofs.Refining
import Formulary.Proofs.Renaming

namespace Formulary

theorem SortedMap.eq_of_get?_eq {κ α : Type} [KeyOrder κ] [DecidableEq κ] {m m' : SortedMap κ α}
    (h : ∀ k, m.get? k = m'.get? k) : m = m' := by
  have hnodup (m : SortedMap κ α) : m.entries.Nodup :=
    m.sorted.imp (S := (· ≠ ·)) fun {a b} hlt heq => KeyOrder.irrefl b.1 (heq ▸ hlt)
  have hperm : m.entries.Perm m'.entries :=
    (List.perm_ext_iff_of_nodup (hnodup m) (hnodup m')).2 fun (k, v) => by
      rw [← get?_eq_some_iff, ← get?_eq_some_iff, h]
  obtain ⟨entries, sorted⟩ := m
  obtain ⟨entries', sorted'⟩ := m'
  obtain rfl : entries = entries' := hperm.eq_of_pairwise
    (fun a _ _ _ hlt hgt => absurd (KeyOrder.trans hlt hgt) (KeyOrder.irrefl a.1)) sorted sorted'
  rfl

namespace Subst

variable {r s next : Subst}

theorem empty_compose (s : Subst) : (∅ : Subst).compose s = s := by
  refine SortedMap.eq_of_get?_eq fun x => ?_
  rw [get?_compose, SortedMap.get?_empty, Option.map_none, Option.none_or]

theorem compose_assoc (hr : r.Puts (·.isQuantifierFree = true)) :
    (r.compose s).compose next = r.compose (s.compose next) := by
  refine SortedMap.eq_of_get?_eq fun x => ?_
  simp only [get?_compose]
  cases hget : r.get? x with
  | none => rfl
  | some t => exact congrArg some (apply_compose_of_isQuantifierFree s next (hr x t hget)).symm

theorem isIdempotent_iff_apply_apply (hs : s.Puts (·.isMono = true)) :
    s.isIdempotent = true ↔
      ∀ t : Ty, t.isQuantifierFree = true → s.apply (s.apply t) = s.apply t := by
  rw [isIdempotent_iff]
  constructor
  · intro h t ht
    rw [← apply_compose_of_isQuantifierFree s s ht, apply_eq_bind, apply_eq_bind]
    refine Ty.bind_congr fun x _ => ?_
    rw [image_compose]
    cases hget : s.get? x with
    | none => rw [image_of_get?_eq_none hget, apply_var, image_of_get?_eq_none hget]
    | some u =>
        rw [image_of_get?_eq_some hget]
        exact Ty.eq_of_same (h x u hget)
  · intro h x t hget
    have hx := h (.var x) rfl
    rw [apply_var, image_of_get?_eq_some hget] at hx
    rw [hx]
    exact Ty.same_self (hs x t hget)

/-- The laws of substitutions that put types which bind no variable. They may bind the same
variables, and need not leave alone what they put. -/
theorem composition_laws (hr : r.Puts (·.isQuantifierFree = true)) (hs : s.Puts (·.isMono = true))
    (next : Subst) :
    (∀ t : Ty, t.isQuantifierFree = true →
      (s.compose next).apply t = next.apply (s.apply t)) ∧
    (r.compose s).compose next = r.compose (s.compose next) ∧
    (s.compose ∅ = s ∧ (∅ : Subst).compose s = s) ∧
    (s.isIdempotent = true ↔
      ∀ t : Ty, t.isQuantifierFree = true → s.apply (s.apply t) = s.apply t) :=
  ⟨fun _ ht => apply_compose_of_isQuantifierFree s next ht, compose_assoc hr,
    ⟨compose_empty s, empty_compose s⟩, isIdempotent_iff_apply_apply hs⟩

theorem composition_laws_overlapping :
    let r : Subst := singleton 0 (.fn (.var 1) (.var 0))
    let s : Subst := (singleton 0 (.instanceOf "Option" [.var 1])).insert 1 .scalar
    let next : Subst := singleton 1 (.var 0)
    (r.compose s).compose next = r.compose (s.compose next) ∧
      (s.compose next).apply (.var 0) = next.apply (s.apply (.var 0)) ∧
      s.isIdempotent = false ∧
        ∃ t : Ty, t.isQuantifierFree = true ∧ s.apply (s.apply t) ≠ s.apply t := by
  intro r s next
  have hr : r.Puts (·.isQuantifierFree = true) := puts_singleton rfl
  have hs : s.Puts (·.isMono = true) := by
    intro x t h
    rw [SortedMap.get?_insert] at h
    split at h
    · cases h
      rfl
    · exact puts_singleton (P := (·.isMono = true)) rfl x t h
  have hlaws := composition_laws hr hs next
  have hfalse : s.isIdempotent = false := by decide
  refine ⟨hlaws.2.1, hlaws.1 _ rfl, hfalse, ?_⟩
  by_contra hall
  refine absurd (hlaws.2.2.2.2 fun t ht => ?_) (by simp [hfalse])
  by_contra hne
  exact hall ⟨t, ht, hne⟩

end Subst

end Formulary
