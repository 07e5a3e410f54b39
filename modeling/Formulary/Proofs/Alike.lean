import Formulary.Proofs.Distinguishing
import Formulary.Proofs.History
import Formulary.Proofs.Missing

namespace Formulary

namespace Ty

mutual

theorem freeOccurrences_subset_mentions (t : Ty) : t.freeOccurrences ⊆ t.mentions := by
  cases t with
  | blank | prim | nat | tag | var => exact List.Subset.refl _
  | data name constructor args => exact freeOccurrencesList_subset_mentionsList args
  | fn a b =>
      exact List.append_subset.2
        ⟨List.subset_append_of_subset_left _ (freeOccurrences_subset_mentions a),
          List.subset_append_of_subset_right _ (freeOccurrences_subset_mentions b)⟩
  | poly id body =>
      exact fun x hx => List.mem_cons_of_mem _
        (freeOccurrences_subset_mentions body (List.mem_of_mem_filter hx))

theorem freeOccurrencesList_subset_mentionsList (ts : List Ty) :
    freeOccurrencesList ts ⊆ mentionsList ts := by
  cases ts with
  | nil => exact List.Subset.refl _
  | cons t ts =>
      exact List.append_subset.2
        ⟨List.subset_append_of_subset_left _ (freeOccurrences_subset_mentions t),
          List.subset_append_of_subset_right _ (freeOccurrencesList_subset_mentionsList ts)⟩

end

mutual

/-- A type that binds no variables has free ones only. -/
theorem mentions_of_isQuantifierFree {t : Ty} (h : t.isQuantifierFree = true) :
    t.mentions = t.freeOccurrences := by
  cases t with
  | poly => cases h
  | blank | prim | nat | tag | var => rfl
  | data name constructor args => exact mentionsList_of_isQuantifierFreeList h
  | fn a b =>
      simp only [isQuantifierFree, Bool.and_eq_true] at h
      rw [mentions, freeOccurrences, mentions_of_isQuantifierFree h.1,
        mentions_of_isQuantifierFree h.2]

theorem mentionsList_of_isQuantifierFreeList {ts : List Ty} (h : isQuantifierFreeList ts = true) :
    mentionsList ts = freeOccurrencesList ts := by
  match ts with
  | [] => rfl
  | t :: ts =>
      simp only [isQuantifierFreeList, Bool.and_eq_true] at h
      rw [mentionsList, freeOccurrencesList, mentions_of_isQuantifierFree h.1,
        mentionsList_of_isQuantifierFreeList h.2]

end

theorem mentions_of_isMono {t : Ty} (h : t.isMono = true) : t.mentions = t.freeOccurrences :=
  mentions_of_isQuantifierFree (isQuantifierFree_of_isMono h)

mutual

/-- Every variable of the result is one of the type, or comes from the image of a free one. -/
theorem mem_mentions_bind {f : Int → Ty} {t : Ty} {y : Int} (h : y ∈ (t.bind f).mentions) :
    y ∈ t.mentions ∨ ∃ x ∈ t.freeOccurrences, y ∈ (f x).mentions := by
  match t with
  | .blank | .prim _ | .nat _ | .tag _ => simp [bind, mentions] at h
  | .var id => exact .inr ⟨id, List.mem_cons_self, h⟩
  | .data name constructor args => exact mem_mentionsList_bindList h
  | .fn a b =>
      simp only [bind, mentions, freeOccurrences, List.mem_append] at h ⊢
      rcases h with h | h
      · exact (mem_mentions_bind h).imp .inl fun ⟨x, hx, hy⟩ => ⟨x, .inl hx, hy⟩
      · exact (mem_mentions_bind h).imp .inr fun ⟨x, hx, hy⟩ => ⟨x, .inr hx, hy⟩
  | .poly id body =>
      simp only [bind, mentions, freeOccurrences, List.mem_cons, List.mem_filter,
        decide_eq_true_eq] at h ⊢
      rcases h with rfl | h
      · exact .inl (.inl rfl)
      · rcases mem_mentions_bind h with hbody | ⟨x, hx, hy⟩
        · exact .inl (.inr hbody)
        · by_cases hid : x = id
          · rw [if_pos hid, hid] at hy
            exact .inl (.inl (List.mem_singleton.1 hy))
          · rw [if_neg hid] at hy
            exact .inr ⟨x, ⟨hx, hid⟩, hy⟩

theorem mem_mentionsList_bindList {f : Int → Ty} {ts : List Ty} {y : Int}
    (h : y ∈ mentionsList (bindList f ts)) :
    y ∈ mentionsList ts ∨ ∃ x ∈ freeOccurrencesList ts, y ∈ (f x).mentions := by
  match ts with
  | [] => simp [bindList, mentionsList] at h
  | t :: ts =>
      simp only [bindList, mentionsList, freeOccurrencesList, List.mem_append] at h ⊢
      rcases h with h | h
      · exact (mem_mentions_bind h).imp .inl fun ⟨x, hx, hy⟩ => ⟨x, .inl hx, hy⟩
      · exact (mem_mentionsList_bindList h).imp .inr fun ⟨x, hx, hy⟩ => ⟨x, .inr hx, hy⟩

end

theorem mem_mentionsList {ts : List Ty} {x : Int} :
    x ∈ mentionsList ts ↔ ∃ t ∈ ts, x ∈ t.mentions := by
  induction ts with
  | nil => simp [mentionsList]
  | cons t ts ih => rw [mentionsList, List.mem_append, ih, List.exists_mem_cons_iff]

/-- All variables of a type, bound ones included, have numbers below `n`. -/
def NumberedBelow (n : Int) (t : Ty) : Prop := ∀ x ∈ t.mentions, x < n

instance (n : Int) (t : Ty) : Decidable (t.NumberedBelow n) :=
  inferInstanceAs (Decidable (∀ x ∈ t.mentions, x < n))

theorem NumberedBelow.mono {m n : Int} {t : Ty} (h : t.NumberedBelow m) (hle : m ≤ n) :
    t.NumberedBelow n := fun x hx => Int.lt_of_lt_of_le (h x hx) hle

theorem Within.numberedBelow {n : Int} {t : Ty} (h : t.Within (· < n)) : t.NumberedBelow n :=
  fun x hx => h.2 x (mentions_of_isMono h.1 ▸ hx)

theorem hereditary_numberedBelow (n : Int) : Hereditary (NumberedBelow n) where
  var ht hx y hy := List.mem_singleton.1 hy ▸ ht _ (freeOccurrences_subset_mentions _ hx)
  data h a ha x hx := h x (mem_mentionsList.2 ⟨a, ha, hx⟩)
  fn h := ⟨fun x hx => h x (List.mem_append_left _ hx), fun x hx => h x (List.mem_append_right _ hx)⟩
  bind ht hf y hy := by
    rcases mem_mentions_bind hy with hy | ⟨x, hx, hy⟩
    · exact ht y hy
    · exact hf x hx y hy

/-- Two types are the same but for the numbers of their variables. -/
def Alike (t t' : Ty) : Prop := ∃ ρ : Equiv.Perm Int, t' = t.rename ρ

theorem Alike.refl (t : Ty) : t.Alike t := ⟨Equiv.refl Int, (rename_refl t).symm⟩

theorem exists_perm_of_apart (xs : List Int) (f : Int → Int)
    (h : ∀ x ∈ xs, ∀ y ∈ xs, f x = f y → x = y) :
    ∃ ρ : Equiv.Perm Int, ∀ x ∈ xs, ρ x = f x := by
  have hnodup : (xs.eraseDups.map f).Nodup := by
    refine (List.nodup_map_iff_inj_on (nodup_eraseDups xs)).2 fun x hx y hy => ?_
    exact h x (List.mem_eraseDups.1 hx) y (List.mem_eraseDups.1 hy)
  obtain ⟨ρ, hρ⟩ := exists_perm_of_nodup (nodup_eraseDups xs) hnodup (List.length_map f).symm
  exact ⟨ρ, fun x hx => List.map_inj_left.1 hρ x (List.mem_eraseDups.2 hx)⟩

theorem exists_rename_apart {ρ ids : Equiv.Perm Int} {t : Ty} {ws : List Ty} {n n' : Int}
    (ht : t.NumberedBelow n) (ht' : (t.rename ρ).NumberedBelow n')
    (hws : ∀ w ∈ ws, ∀ x ∈ w.mentions, n ≤ x)
    (hws' : ∀ w ∈ ws, ∀ y ∈ (w.rename ids).mentions, n' ≤ y) :
    ∃ τ : Equiv.Perm Int, t.rename τ = t.rename ρ ∧ ∀ w ∈ ws, w.rename τ = w.rename ids := by
  have hold : ∀ x, x ∈ t.mentions → ρ x < n' := fun x hx =>
    ht' _ (mentions_rename ρ t ▸ List.mem_map_of_mem hx)
  have hnew : ∀ x, x ∈ mentionsList ws → n ≤ x ∧ n' ≤ ids x := by
    intro x hx
    obtain ⟨w, hw, hx⟩ := mem_mentionsList.1 hx
    exact ⟨hws w hw x hx, hws' w hw _ (mentions_rename ids w ▸ List.mem_map_of_mem hx)⟩
  -- what is not newer goes below `n'`, the rest does not
  have himage : ∀ x ∈ t.mentions ++ mentionsList ws, if x < n then ρ x < n' else n' ≤ ids x := by
    intro x hx
    rcases List.mem_append.1 hx with hx | hx
    · rw [if_pos (ht x hx)]
      exact hold x hx
    · rw [if_neg (Int.not_lt.2 (hnew x hx).1)]
      exact (hnew x hx).2
  have hapart : ∀ x ∈ t.mentions ++ mentionsList ws, ∀ y ∈ t.mentions ++ mentionsList ws,
      (if x < n then ρ x else ids x) = (if y < n then ρ y else ids y) → x = y := by
    intro x hx y hy heq
    have hximage := himage x hx
    have hyimage := himage y hy
    split at heq <;> rename_i hxn <;> split at heq <;> rename_i hyn
    · exact ρ.injective heq
    · rw [if_pos hxn] at hximage
      rw [if_neg hyn] at hyimage
      omega
    · rw [if_neg hxn] at hximage
      rw [if_pos hyn] at hyimage
      omega
    · exact ids.injective heq
  obtain ⟨τ, hτ⟩ := exists_perm_of_apart _ _ hapart
  refine ⟨τ, rename_congr t fun x hx => ?_, fun w hw => rename_congr w fun x hx => ?_⟩
  · rw [hτ x (List.mem_append_left _ hx), if_pos (ht x hx)]
  · rw [hτ x (List.mem_append_right _ (mem_mentionsList.2 ⟨w, hw, hx⟩)),
      if_neg (Int.not_lt.2 (hws w hw x hx))]

end Ty

namespace DataTypes

variable {r : DataTypes}

theorem mem_mentions_of_returns_instantiate {name : String} {u u' : Supply} {v : VariantInstance}
    (h : Attempt.Returns (r.instantiate name) u v u') (hu : u'.Unwrapped) :
    ∀ w ∈ v.result :: v.fields.map (·.type), ∀ x ∈ w.mentions, u.next ≤ x := by
  obtain ⟨hresult, hfields⟩ := within_of_returns_instantiate h hu
  rw [List.forall_mem_cons]
  refine ⟨fun x hx => (hresult.2 x (Ty.mentions_of_isMono hresult.1 ▸ hx)).1, fun w hw x hx => ?_⟩
  obtain ⟨f, hf, rfl⟩ := List.mem_map.1 hw
  exact ((hfields f hf).2 x (Ty.mentions_of_isMono (hfields f hf).1 ▸ hx)).1

theorem agrees_refl (ids : Equiv.Perm Int) (ahead : Int) (r : DataTypes) :
    r.Agrees ⟨ids, fun _ _ => True, ahead⟩ r where
  fields _ _ _ _ _ _ := TypeExpr.meansSame_refl ..
  scalar := trivial
  instances _ _ _ := trivial
  variants _ _ _ := trivial
  constructors _ _ _ := ⟨rfl, fun _ _ => rfl⟩

end DataTypes

namespace Pattern

variable {r : DataTypes}

/-- The types of the fields of a variant in a value of a type. -/
def fieldsIn (t : Ty) (v : VariantInstance) : List Ty :=
  match Ty.unify t v.result with
  | .ok s => (v.fields.map (·.type)).map s.apply
  | .error _ => v.fields.map (·.type)

theorem run_fieldTypes (name : String) (t : Ty) (u : Supply) :
    (fieldTypes r name t).run u =
      match Attempt.outcome (r.instantiate name) u with
      | (.ok v, u') => (fieldsIn t v, u')
      | (.error _, u') => ([], u') := by
  unfold fieldTypes Attempt.outcome
  rw [StateT.run_bind]
  cases (r.instantiate name).run.run u with
  | mk result u' =>
      cases result with
      | error e => rfl
      | ok v =>
          dsimp only [fieldsIn, bind, pure]
          cases Ty.unify t v.result <;> rfl

theorem fieldsIn_numberedBelow {n : Int} {t : Ty} {v : VariantInstance} (ht : t.NumberedBelow n)
    (hv : v.Within (· < n)) : ∀ w ∈ fieldsIn t v, w.NumberedBelow n := by
  have hfields : ∀ w ∈ v.fields.map (·.type), w.NumberedBelow n := by
    intro w hw
    obtain ⟨f, hf, rfl⟩ := List.mem_map.1 hw
    exact (hv.2 f hf).numberedBelow
  intro w hw
  unfold fieldsIn at hw
  split at hw
  · rename_i s hs
    obtain ⟨w', hw', rfl⟩ := List.mem_map.1 hw
    exact (Ty.puts_of_unify (Ty.hereditary_numberedBelow n) ht hv.1.numberedBelow hs).apply
      (Ty.hereditary_numberedBelow n) (hfields w' hw')
  · exact hfields w hw

theorem fieldsIn_rename {ρ : Equiv.Perm Int} {t : Ty} {v v' : VariantInstance}
    (hresult : v'.result = v.result.rename ρ)
    (hfields : v'.fields.map (·.type) = (v.fields.map (·.type)).map (·.rename ρ)) :
    fieldsIn (t.rename ρ) v' = (fieldsIn t v).map (·.rename ρ) := by
  unfold fieldsIn
  rw [hresult, hfields]
  obtain ⟨s, s', hs, hs', hrenamed, -⟩ | ⟨e, he, he'⟩ := Ty.unify_renamed_of_hereditary
    (ρ := ρ) (P := fun _ => True) ⟨fun _ _ => trivial, fun _ _ _ => trivial,
      fun _ => ⟨trivial, trivial⟩, fun _ _ => trivial⟩ (a := t) (b := v.result) trivial trivial
  · rw [hs, hs']
    dsimp only
    generalize v.fields.map (·.type) = ws
    rw [List.map_map, List.map_map]
    exact List.map_congr_left fun w _ => hrenamed.apply_rename w
  · rw [he, he']

theorem fieldTypes_alike {name : String} {t t' : Ty} {u u' u₁ u₁' : Supply} {ts ts' : List Ty}
    (halike : t.Alike t') (ht : t.NumberedBelow u.next) (ht' : t'.NumberedBelow u'.next)
    (hrun : (fieldTypes r name t).run u = (ts, u₁))
    (hrun' : (fieldTypes r name t').run u' = (ts', u₁')) (hu : u₁.Unwrapped)
    (hu' : u₁'.Unwrapped) : List.Forall₂ Ty.Alike ts ts' := by
  obtain ⟨ids, ahead, hsupply⟩ := exists_showsSupply (fun _ _ => True) u u'
  have hinstances : Mirrors _ (r.instantiate name) (r.instantiate name) _ :=
    DataTypes.instantiate_mirrors (r.agrees_refl ids ahead) rfl
  have hmirrors := hinstances u u' hsupply
  rw [run_fieldTypes] at hrun hrun'
  rcases hout : Attempt.outcome (r.instantiate name) u with ⟨e | v, s⟩ <;>
    rcases hout' : Attempt.outcome (r.instantiate name) u' with ⟨e' | v', s'⟩ <;>
    rw [hout] at hrun hmirrors <;> rw [hout'] at hrun' hmirrors
  · cases hrun
    cases hrun'
    exact .nil
  · exact absurd trivial hmirrors
  · exact hmirrors.elim
  · obtain ⟨rfl, rfl⟩ := Prod.mk.inj hrun
    obtain ⟨rfl, rfl⟩ := Prod.mk.inj hrun'
    obtain ⟨ρ, rfl⟩ := halike
    obtain ⟨hresult, -⟩ := hmirrors.1.result
    obtain ⟨hfields, -⟩ := Mirror.forall₂_showsTy.1 (Mirror.forall₂_types hmirrors.1.fields)
    rw [Ty.renameList_eq_map] at hfields
    have hfresh := DataTypes.mem_mentions_of_returns_instantiate hout hu
    have hfresh' := DataTypes.mem_mentions_of_returns_instantiate hout' hu'
    rw [hresult, hfields, List.forall_mem_cons, List.forall_mem_map] at hfresh'
    obtain ⟨τ, hτ, hvariant⟩ := Ty.exists_rename_apart ht ht' hfresh (List.forall_mem_cons.2 hfresh')
    rw [List.forall_mem_cons] at hvariant
    have hresult' : v'.result = v.result.rename τ := hresult.trans hvariant.1.symm
    have hfields' : v'.fields.map (·.type) = (v.fields.map (·.type)).map (·.rename τ) :=
      hfields.trans (List.map_congr_left fun w hw => (hvariant.2 w hw).symm)
    rw [← hτ, fieldsIn_rename hresult' hfields', List.forall₂_map_right_iff]
    exact List.forall₂_same.2 fun w _ => ⟨τ, rfl⟩

theorem fieldTypes_numberedBelow {name : String} {t : Ty} {u u' : Supply} {ts : List Ty}
    (ht : t.NumberedBelow u.next) (hrun : (fieldTypes r name t).run u = (ts, u'))
    (hu : u'.Unwrapped) : ∀ w ∈ ts, w.NumberedBelow u'.next := by
  have hle : u ≤ u' := by
    have hgrows := fieldTypes_grows r name t u
    rwa [hrun] at hgrows
  rw [run_fieldTypes] at hrun
  rcases hout : Attempt.outcome (r.instantiate name) u with ⟨e | v, s⟩ <;> rw [hout] at hrun
  · cases hrun
    exact fun _ h => absurd h List.not_mem_nil
  · obtain ⟨rfl, rfl⟩ := Prod.mk.inj hrun
    have hv := DataTypes.within_of_returns_instantiate hout hu
    exact fieldsIn_numberedBelow (ht.mono (hu.next_le_next hle))
      ⟨hv.1.imp fun _ h => h.2, fun f hf => (hv.2 f hf).imp fun _ h => h.2⟩

end Pattern

end Formulary
