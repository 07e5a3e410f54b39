import Formulary.Proofs.Alike

namespace Formulary

/-- The supply after some more variables. -/
def Supply.after (u : Supply) (n : Nat) : Supply := { u with drawn := u.drawn + n }

theorem Supply.next_after {u : Supply} {n : Nat} (h : u.next + n < 2 ^ 63) :
    (u.after n).next = u.next + n := by
  have hlow : -2 ^ 63 ≤ u.next := Int.le_bmod (by decide)
  have hsum : (u.after n).next = (u.next + n).bmod 0x10000000000000000 := by
    simp only [next, after, Int.bmod_add_bmod, Int.natCast_add, Int.add_assoc]
  rw [hsum, Int.bmod_eq_of_le (by omega) (by omega)]

namespace Ty

mutual

theorem bind_eq_rename {f : Int → Int} {t : Ty} (h : t.isQuantifierFree = true) :
    t.bind (fun x => .var (f x)) = t.rename f := by
  cases t with
  | poly => cases h
  | blank | prim | nat | tag | var => rfl
  | data name constructor args =>
      rw [isQuantifierFree] at h
      rw [bind, rename, bindList_eq_renameList h]
  | fn a b =>
      simp only [isQuantifierFree, Bool.and_eq_true] at h
      rw [bind, rename, bind_eq_rename h.1, bind_eq_rename h.2]

theorem bindList_eq_renameList {f : Int → Int} {ts : List Ty}
    (h : isQuantifierFreeList ts = true) :
    bindList (fun x => .var (f x)) ts = renameList f ts := by
  match ts with
  | [] => rfl
  | t :: ts =>
      simp only [isQuantifierFreeList, Bool.and_eq_true] at h
      rw [bindList, renameList, bind_eq_rename h.1, bindList_eq_renameList h.2]

end

/-- The variables that are bound when a type is generalized. -/
def unkept (t : Ty) (keep : Int → Bool) : List Int := t.freeVars.filter fun x => !keep x

theorem mem_unkept_iff {t : Ty} {keep : Int → Bool} {x : Int} :
    x ∈ t.unkept keep ↔ x ∈ t.freeVars ∧ keep x = false := by
  simp [unkept]

theorem mem_freeVars_generalize {t : Ty} (ht : t.isQuantifierFree = true) {keep : Int → Bool}
    {x : Int} : x ∈ (t.generalize keep).freeVars ↔ x ∈ t.freeVars ∧ keep x = true := by
  have hscheme : (t.generalize keep).unquantify = (t.unkept keep, t) :=
    unquantify_quantify (unquantify_of_isQuantifierFree ht)
  rw [freeVars, List.mem_eraseDups, mem_freeOccurrences_iff_unquantify, hscheme]
  simp only [mem_unkept_iff, freeVars, List.mem_eraseDups, not_and, Bool.not_eq_false]
  exact and_congr_right fun hx => ⟨fun h => h hx, fun h _ => h⟩

theorem run_freshen (ids : List Int) (s : Subst) (u : Supply) :
    ((freshen ids s).run u).2 = u.after ids.length := by
  induction ids generalizing s u with
  | nil => rfl
  | cons id ids ih =>
      rw [run_freshen_cons, ih, List.length_cons]
      simp only [Supply.after, Supply.advance, Nat.add_assoc, Nat.add_comm 1]

theorem image_freshen {ids : List Int} (hids : ids.Nodup) (s : Subst) (u : Supply) {x : Int}
    (hx : x ∈ ids) :
    ((freshen ids s).run u).1.image x = .var (u.after (ids.idxOf x)).next := by
  induction ids generalizing s u with
  | nil => cases hx
  | cons id ids ih =>
      obtain ⟨hid, hids⟩ := List.nodup_cons.1 hids
      rw [run_freshen_cons]
      by_cases heq : id = x
      · subst heq
        rw [List.idxOf_cons_self]
        refine Subst.image_of_get?_eq_some ?_
        rw [freshen_get? ids _ _ hid, SortedMap.get?_insert, if_pos rfl]
        rfl
      · have hx : x ∈ ids := (List.mem_cons.1 hx).resolve_left (Ne.symm heq)
        rw [ih hids _ _ hx, List.idxOf_cons_ne _ heq]
        simp only [Supply.after, Supply.advance, Nat.add_right_comm, Nat.add_assoc]

/-- The numbers that an instance has in place of those of a generalized type. -/
def renewed (ids : List Int) (u : Supply) (x : Int) : Int :=
  if x ∈ ids then (u.after (ids.idxOf x)).next else x

theorem run_instantiate_generalize {t : Ty} (ht : t.isQuantifierFree = true) (keep : Int → Bool)
    (u : Supply) : (t.generalize keep).instantiate.run u =
      (t.rename (renewed (t.unkept keep) u), u.after (t.unkept keep).length) := by
  have hscheme : (t.generalize keep).unquantify = (t.unkept keep, t) :=
    unquantify_quantify (unquantify_of_isQuantifierFree ht)
  have himage : ∀ x, ((freshen (t.unkept keep) ∅).run u).1.image x =
      .var (renewed (t.unkept keep) u x) := by
    intro x
    unfold renewed
    split
    · rename_i hx
      exact image_freshen ((nodup_eraseDups _).filter _) ∅ u hx
    · rename_i hx
      exact Subst.image_of_get?_eq_none (freshen_get? _ ∅ u hx)
  rw [run_instantiate, hscheme]
  dsimp only
  split
  · rename_i hempty
    -- nothing is bound, and the type is returned as it is
    have hnil : t.unkept keep = [] := List.isEmpty_iff.1 hempty
    have hsame : renewed (t.unkept keep) u = Equiv.refl Int := by
      funext x
      simp [renewed, hnil]
    rw [hsame, rename_refl, hnil, generalize, show t.freeVars.filter _ = [] from hnil]
    rfl
  · rw [Subst.apply_eq_bind, funext himage, bind_eq_rename ht, run_freshen]

theorem renewed_of_mem {ids : List Int} {u : Supply} (hroom : u.next + ids.length ≤ 2 ^ 63)
    {x : Int} (hx : x ∈ ids) : renewed ids u x = u.next + ids.idxOf x := by
  have hindex := List.idxOf_lt_length_of_mem hx
  rw [renewed, if_pos hx, Supply.next_after (by omega)]

theorem renewed_of_notMem {ids : List Int} {u : Supply} {x : Int} (hx : x ∉ ids) :
    renewed ids u x = x := if_neg hx

theorem renewed_inj {ids : List Int} {u : Supply} (hroom : u.next + ids.length ≤ 2 ^ 63) {x y : Int}
    (hx : x < u.next) (hy : y < u.next) (h : renewed ids u x = renewed ids u y) : x = y := by
  by_cases hxs : x ∈ ids <;> by_cases hys : y ∈ ids
  · rw [renewed_of_mem hroom hxs, renewed_of_mem hroom hys] at h
    exact (List.idxOf_inj hxs).1 (by omega)
  · rw [renewed_of_mem hroom hxs, renewed_of_notMem hys] at h
    omega
  · rw [renewed_of_notMem hxs, renewed_of_mem hroom hys] at h
    omega
  · rwa [renewed_of_notMem hxs, renewed_of_notMem hys] at h

/-- An instance is the type under a renaming of all variables that changes just those that are not
kept, to numbers from the supply. -/
structure Renews (t : Ty) (keep : Int → Bool) (low : Int) (ρ : Equiv.Perm Int) : Prop where
  kept : ∀ x ∈ t.freeVars, keep x = true → ρ x = x
  renewed : ∀ x ∈ t.freeVars, keep x = false → low ≤ ρ x ∧ ρ x < low + (t.unkept keep).length

theorem exists_renews {t : Ty} (ht : t.isQuantifierFree = true) (keep : Int → Bool) {u : Supply}
    (hold : ∀ x ∈ t.freeVars, x < u.next) (hroom : u.next + (t.unkept keep).length ≤ 2 ^ 63) :
    ∃ ρ, t.Renews keep u.next ρ ∧ ((t.generalize keep).instantiate.run u).1 = t.rename ρ := by
  obtain ⟨ρ, hρ⟩ := exists_perm_of_apart t.freeVars (Ty.renewed (t.unkept keep) u)
    fun x hx y hy => renewed_inj hroom (hold x hx) (hold y hy)
  refine ⟨ρ, ⟨fun x hx hkeep => ?_, fun x hx hkeep => ?_⟩, ?_⟩
  · rw [hρ x hx, renewed_of_notMem]
    simp [mem_unkept_iff, hkeep]
  · have hmem := mem_unkept_iff.2 ⟨hx, hkeep⟩
    have hindex := List.idxOf_lt_length_of_mem hmem
    rw [hρ x hx, renewed_of_mem hroom hmem]
    omega
  · rw [run_instantiate_generalize ht]
    refine rename_congr t fun x hx => (hρ x ?_).symm
    rwa [freeVars, List.mem_eraseDups, ← mentions_of_isQuantifierFree ht]

theorem next_instantiate_generalize {t : Ty} (ht : t.isQuantifierFree = true) {keep : Int → Bool}
    {u : Supply} (hroom : u.next + (t.unkept keep).length < 2 ^ 63) :
    ((t.generalize keep).instantiate.run u).2.next = u.next + (t.unkept keep).length := by
  rw [run_instantiate_generalize ht]
  exact Supply.next_after hroom

theorem mem_freeVars_rename {t : Ty} {ρ : Equiv.Perm Int} {x : Int} :
    x ∈ (t.rename ρ).freeVars ↔ ∃ y ∈ t.freeVars, ρ y = x := by
  simp only [freeVars, List.mem_eraseDups, freeOccurrences_rename, List.mem_map]

theorem Renews.keep_of_mem {t : Ty} {keep : Int → Bool} {low₁ low₂ : Int} {ρ₁ ρ₂ : Equiv.Perm Int}
    (h₁ : t.Renews keep low₁ ρ₁) (h₂ : t.Renews keep low₂ ρ₂)
    (hranges : low₁ + (t.unkept keep).length ≤ low₂) {x : Int} (hx₁ : x ∈ (t.rename ρ₁).freeVars)
    (hx₂ : x ∈ (t.rename ρ₂).freeVars) : keep x = true := by
  obtain ⟨y, hy, rfl⟩ := mem_freeVars_rename.1 hx₁
  obtain ⟨z, hz, heq⟩ := mem_freeVars_rename.1 hx₂
  cases hkeepy : keep y with
  | true => rwa [h₁.kept y hy hkeepy]
  | false =>
      cases hkeepz : keep z with
      | true => rwa [← heq, h₂.kept z hz hkeepz]
      | false =>
          have hbelow := h₁.renewed y hy hkeepy
          have habove := h₂.renewed z hz hkeepz
          omega

/-- An instance of a generalized type is the type with the variables that are not kept numbered
anew, and two instances share only variables that are kept. What is asked of the supply is that its
numbers are newer than those of the type and do not run out. -/
theorem instances_of_generalize {t : Ty} (ht : t.isQuantifierFree = true) (keep : Int → Bool)
    {u : Supply} (hold : ∀ x ∈ t.freeVars, x < u.next)
    (hroom : u.next + 2 * (t.unkept keep).length ≤ 2 ^ 63) :
    let scheme := t.generalize keep
    let u₁ := (scheme.instantiate.run u).2
    (∀ x, x ∈ scheme.freeVars ↔ x ∈ t.freeVars ∧ keep x = true) ∧
    ∃ ρ₁ ρ₂ : Equiv.Perm Int,
      (scheme.instantiate.run u).1 = t.rename ρ₁ ∧ t.Renews keep u.next ρ₁ ∧
      (scheme.instantiate.run u₁).1 = t.rename ρ₂ ∧ t.Renews keep u₁.next ρ₂ ∧
      ∀ x, x ∈ (t.rename ρ₁).freeVars → x ∈ (t.rename ρ₂).freeVars → keep x = true := by
  intro scheme u₁
  have hword : u.next < 2 ^ 63 := Int.bmod_lt (by decide)
  have hnext : u₁.next = u.next + (t.unkept keep).length :=
    next_instantiate_generalize ht (by omega)
  obtain ⟨ρ₁, hρ₁, hrun₁⟩ := exists_renews ht keep hold (by omega)
  obtain ⟨ρ₂, hρ₂, hrun₂⟩ := exists_renews (u := u₁) ht keep
    (fun x hx => by have := hold x hx; omega) (by omega)
  exact ⟨fun x => mem_freeVars_generalize ht, ρ₁, ρ₂, hrun₁, hρ₁, hrun₂, hρ₂,
    fun x hx₁ hx₂ => hρ₁.keep_of_mem hρ₂ hnext.ge hx₁ hx₂⟩

theorem instances_of_generalize_constantly :
    let t := fn (.var 0) (.fn (.var 1) (.var 0))
    let scheme := t.generalize (· == 1)
    scheme.instantiate.run (.startingAt 5) =
        (fn (.var 5) (.fn (.var 1) (.var 5)), (Supply.startingAt 5).after 1) ∧
      ∃ ρ₁ ρ₂ : Equiv.Perm Int,
        (scheme.instantiate.run (.startingAt 5)).1 = t.rename ρ₁ ∧
        (scheme.instantiate.run ((Supply.startingAt 5).after 1)).1 = t.rename ρ₂ ∧
        ∀ x, x ∈ (t.rename ρ₁).freeVars → x ∈ (t.rename ρ₂).freeVars → x = 1 := by
  intro t scheme
  have ht : t.isQuantifierFree = true := rfl
  obtain ⟨-, ρ₁, ρ₂, h₁, -, h₂, -, hshared⟩ := instances_of_generalize ht (· == 1)
    (u := Supply.startingAt 5) (by decide) (by decide)
  exact ⟨rfl, ρ₁, ρ₂, h₁, h₂, fun x hx₁ hx₂ => by simpa using hshared x hx₁ hx₂⟩

/-- The largest number is handed out before the least, so that a new variable may be one that is
kept. Then the instance is the type under no renaming that keeps its variables apart. -/
theorem instance_overrun :
    let least : Int := -2 ^ 63
    let t := fn (.var least) (.fn (.var 0) (.var 1))
    let u := Supply.startingAt (2 ^ 63 - 1)
    t.isQuantifierFree = true ∧ (∀ x ∈ t.freeVars, x < u.next) ∧
      ¬ ∃ ρ : Int → Int, Set.InjOn ρ {x | x ∈ t.freeVars} ∧
        ((t.generalize (· == least)).instantiate.run u).1 = t.rename ρ := by
  intro least t u
  refine ⟨rfl, by decide, ?_⟩
  rintro ⟨ρ, hinj, hinstance⟩
  have hunkept : t.unkept (· == least) = [0, 1] := by decide
  have hrun : ((t.generalize (· == least)).instantiate.run u).1 =
      fn (.var least) (.fn (.var (2 ^ 63 - 1)) (.var least)) := by
    rw [run_instantiate_generalize rfl, hunkept]
    have hkept : renewed [0, 1] u least = least := renewed_of_notMem (by decide)
    have hzero : renewed [0, 1] u 0 = 2 ^ 63 - 1 := by decide
    have hone : renewed [0, 1] u 1 = least := by decide
    simp only [t, rename, hkept, hzero, hone]
  rw [hrun] at hinstance
  injection hinstance with hfirst hrest
  injection hrest with _ hlast
  injection hfirst with hleast
  injection hlast with hone
  have hsame : least = 1 := hinj (by decide) (by decide) (hleast.symm.trans hone)
  exact absurd hsame (by decide)

end Ty

end Formulary
