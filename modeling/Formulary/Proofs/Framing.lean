import Formulary.Proofs.Arity
import Formulary.Proofs.Nameless

/-!
Inference beside what has been found out before. What is known of variables below a number, and of
names that an expression does not mention, makes no difference to the inference of the expression from
there on: the variables that it hands out and puts are all from the number on. So an expression that
is accepted on its own is accepted behind others, unless it has an unbound name in common with them.
-/

namespace Formulary

/-- A scheme in scope, all whose free variables have a property. -/
def Ty.schemeOf (F : Int → Prop) (t : Ty) : Upward :=
  t.schemeBelow ⊓ Known (∀ x ∈ t.freeOccurrences, F x)

theorem Ty.schemeOf_of_inScopeOf {F : Int → Prop} {t : Ty} {n : Int} (h : t.inScopeOf F n) :
    t.schemeOf F n :=
  ⟨schemeBelow_of_inScope (inScopeOf_iff.1 h).1, (inScopeOf_iff.1 h).2.2⟩

/-- The types of an environment are schemes in scope, all whose free variables have a property. -/
def TypeEnv.inScopeOf (F : Int → Prop) (env : TypeEnv) : Upward where
  holds n := ∀ x t, env.get? x = some t → t.schemeOf F n
  mono hle h x t hx := (t.schemeOf F).mono hle (h x t hx)

theorem Registry.isOpen_iff {r : Registry} {name : String} :
    r.isOpen name = true ↔
      (∀ found, r.data.variant? name = some found → found.2.fields ≠ []) ∧
        ∀ found, r.operation? name = some found → found.2.signature.splitArrow.1 ≠ [] := by
  cases hvariant : r.data.variant? name with
  | none => cases hop : r.operation? name <;> simp [isOpen, hvariant, hop]
  | some found =>
      obtain ⟨d, written, fields⟩ := found
      cases fields <;> cases hop : r.operation? name <;> simp [isOpen, hvariant, hop]

namespace Inference

/-- Something holds of every variable from a number on. -/
abbrev From (low : Int) : Int → Prop := fun x => low ≤ x

/-- The next variable is not below a number. -/
def Above (low : Int) : Upward := ⟨fun n => low ≤ n, fun hle h => h.trans hle⟩

/-- The second state knows more than the first: something about variables below a number, and about
names that are not visible. -/
structure State.Frames (low : Int) (visible : String → Prop) (s t : State) : Prop where
  supply : t.supply = s.supply
  above : Above low s.supply.next
  image : ∀ x, low ≤ x → t.subst.image x = s.subst.image x
  within : ∀ x, low ≤ x → (s.subst.image x).Within (From low)
  free : ∀ name, visible name → t.free.lookup name = s.free.lookup name
  freeAbove : ∀ v ∈ s.free, low ≤ v.2

/-- Steps that succeed behind a state do the same behind one that knows more. They look up no name
that is not visible. -/
structure Framed (low : Int) (visible : String → Prop) {α : Type} (P : Upward) (m : Infer α)
    (A : α → Upward) : Prop where
  grows : ∀ s, s.supply ≤ (m.outcome s).2.supply
  frames : ∀ s t, s.Sound → P s.supply.next → s.Frames low visible t →
    (m.outcome t).2.supply.Unwrapped → ∀ a s', m.Returns s a s' →
      s'.Sound ∧ A a s'.supply.next ∧ ∃ t', m.Returns t a t' ∧ s'.Frames low visible t' ∧
        ∀ name, ¬visible name → t'.free.lookup name = t.free.lookup name

variable {low : Int} {visible : String → Prop} {α β : Type} {P P' : Upward} {A A' : α → Upward}
  {B : β → Upward} {s t : State} {c : Context}

theorem State.Frames.apply_eq (h : s.Frames low visible t) {u : Ty} (hu : u.Within (From low)) :
    t.subst.apply u = s.subst.apply u := by
  rw [Subst.apply_eq_bind, Subst.apply_eq_bind]
  exact Ty.bind_congr fun x hx => h.image x (hu.2 x hx)

theorem State.Frames.within_apply (h : s.Frames low visible t) {u : Ty} (hu : u.Within (From low)) :
    (s.subst.apply u).Within (From low) := by
  rw [Subst.apply_eq_bind]
  exact Ty.within_bind hu.1 fun x hx => h.within x (hu.2 x hx)

theorem State.Frames.inScopeOf_apply (h : s.Frames low visible t) (hs : s.Sound) {u : Ty}
    (hu : u.inScopeOf (From low) s.supply.next) :
    (s.subst.apply u).inScopeOf (From low) s.supply.next := by
  obtain ⟨hscope, hwithin⟩ := Ty.inScopeOf_iff.1 hu
  exact Ty.inScopeOf_iff.2 ⟨Subst.within_apply hs.subst.2 hscope, h.within_apply hwithin⟩

/-- A state that has moved on in step with another. -/
theorem State.Frames.advance (h : s.Frames low visible t) {supply : Supply}
    (hle : s.supply ≤ supply) (hu : supply.Unwrapped) :
    State.Frames low visible { s with supply } { t with supply } where
  supply := rfl
  above := h.above.trans (hu.next_le_next hle)
  image := h.image
  within := h.within
  free := h.free
  freeAbove := h.freeAbove

/-- Both states take up what is found. -/
theorem State.Frames.refine (h : s.Frames low visible t) {found : Subst}
    (hfound : found.Within (From low)) : (s.refine found).Frames low visible (t.refine found) where
  supply := h.supply
  above := h.above
  image x hx := by
    show (t.subst.compose found).image x = (s.subst.compose found).image x
    rw [Subst.image_compose, Subst.image_compose, h.image x hx]
  within x hx := by
    show ((s.subst.compose found).image x).Within _
    rw [Subst.image_compose]
    exact Subst.within_apply hfound (h.within x hx)
  free := h.free
  freeAbove := h.freeAbove

namespace Framed

theorem weaken {m : Infer α} (h : Framed low visible P m A) (hP : ∀ n, P' n → P n)
    (hA : ∀ a n, A a n → A' a n) : Framed low visible P' m A' where
  grows := h.grows
  frames s t hs hpre hframes hu a s' hrun := by
    obtain ⟨hs', ha, hrest⟩ := h.frames s t hs (hP _ hpre) hframes hu a s' hrun
    exact ⟨hs', hA a _ ha, hrest⟩

theorem of_pre {m : Infer α} (h : Framed low visible P m A) (hP : ∀ n, P' n → P n) :
    Framed low visible P' m A :=
  h.weaken hP fun _ _ => id

theorem pure {a : α} (h : ∀ n, P n → A a n) : Framed low visible P (pure a) A where
  grows _ := le_rfl
  frames s t hs hpre hframes _ a' s' hrun := by
    cases hrun
    exact ⟨hs, h _ hpre, t, rfl, hframes, fun _ _ => rfl⟩

/-- Steps that fail succeed behind no state. -/
theorem fails {m : Infer α} (hgrows : ∀ s, s.supply ≤ (m.outcome s).2.supply)
    (h : ∀ s a s', ¬m.Returns s a s') : Framed low visible P m A where
  grows := hgrows
  frames s _ _ _ _ _ a s' hrun := absurd hrun (h s a s')

theorem throw (f : Fault) : Framed low visible P (throw f : Infer α) A :=
  fails (fun _ => le_rfl) fun _ _ _ hrun => by cases hrun

theorem failAt (e : Expr) (f : Fault) : Framed low visible P (failAt e f : Infer α) A :=
  fails (fun _ => le_rfl) fun _ _ _ hrun => by cases hrun

theorem bind {m : Infer α} {f : α → Infer β} (hm : Framed low visible P m A)
    (hf : ∀ a, Framed low visible (P ⊓ A a) (f a) B) : Framed low visible P (m >>= f) B where
  grows s := by
    have hfirst := hm.grows s
    rw [Attempt.outcome_bind]
    cases h : m.outcome s with
    | mk r s₁ =>
        rw [h] at hfirst
        cases r with
        | ok a => exact hfirst.trans ((hf a).grows s₁)
        | error e => exact hfirst
  frames s t hs hpre hframes hu b s' hrun := by
    obtain ⟨a, s₁, hfirst, hrest⟩ := Attempt.returns_bind_iff.1 hrun
    have hu₁ : (m.outcome t).2.supply.Unwrapped := by
      rw [Attempt.outcome_bind] at hu
      cases h : m.outcome t with
      | mk r t₁ =>
          rw [h] at hu
          cases r with
          | ok a => exact hu.of_le ((hf a).grows t₁)
          | error e => exact hu
    obtain ⟨hs₁, ha, t₁, hfirst', hframes₁, hkept₁⟩ := hm.frames s t hs hpre hframes hu₁ a s₁ hfirst
    rw [hfirst'] at hu₁
    have hle := hm.grows s
    rw [hfirst] at hle
    have hpre₁ : P s₁.supply.next := P.mono ((hframes₁.supply ▸ hu₁).next_le_next hle) hpre
    rw [Attempt.outcome_bind, hfirst'] at hu
    obtain ⟨hs', hb, t', hrest', hframes', hkept⟩ :=
      (hf a).frames s₁ t₁ hs₁ ⟨hpre₁, ha⟩ hframes₁ hu b s' hrest
    exact ⟨hs', hb, t', Attempt.returns_bind_iff.2 ⟨a, t₁, hfirst', hrest'⟩, hframes',
      fun name hname => (hkept name hname).trans (hkept₁ name hname)⟩

theorem followedBy {m : Infer α} {f : α → Infer β} (hm : Framed low visible P' m A)
    (hP : ∀ n, P n → P' n) (hf : ∀ a, Framed low visible (P ⊓ A a) (f a) B) :
    Framed low visible P (m >>= f) B :=
  (hm.of_pre hP).bind hf

theorem iteOf {φ : Prop} [Decidable φ] {m m' : Infer α} (hthen : φ → Framed low visible P m A)
    (helse : ¬φ → Framed low visible P m' A) : Framed low visible P (if φ then m else m') A := by
  split
  · rename_i h
    exact hthen h
  · rename_i h
    exact helse h

theorem ite {φ : Prop} [Decidable φ] {m m' : Infer α} (hthen : Framed low visible P m A)
    (helse : Framed low visible P m' A) : Framed low visible P (if φ then m else m') A :=
  iteOf (fun _ => hthen) fun _ => helse

theorem forM {f : α → Infer PUnit} {l : List α}
    (h : ∀ a ∈ l, Framed low visible P (f a) fun _ => ⊤) :
    Framed low visible P (l.forM f) fun _ => ⊤ := by
  induction l with
  | nil => exact Framed.pure fun _ _ => trivial
  | cons a l ih =>
      show Framed low visible P (f a >>= fun _ => l.forM f) _
      exact (h a (List.mem_cons_self ..)).bind fun _ =>
        (ih fun b hb => h b (List.mem_cons_of_mem _ hb)).of_pre fun _ h => h.1

theorem mapM {f : α → Infer β} {l : List α} (h : ∀ a ∈ l, Framed low visible P (f a) B) :
    Framed low visible P (l.mapM f) (Every B) := by
  induction l with
  | nil => exact Framed.pure fun _ _ => every_nil _ _
  | cons a l ih =>
      rw [List.mapM_cons]
      have hrest := ih fun a' ha' => h a' (List.mem_cons_of_mem _ ha')
      refine (h a (List.mem_cons_self ..)).bind fun b => ?_
      refine hrest.followedBy (fun _ h => h.1) fun bs => ?_
      exact Framed.pure fun _ h => every_cons.2 ⟨h.1.2, h.2⟩

theorem orElseFail {m : Infer α} {f : Fault → Infer α} (hm : Framed low visible P m A)
    (hgrows : ∀ e s, s.supply ≤ ((f e).outcome s).2.supply)
    (hfails : ∀ e s a s', ¬(f e).Returns s a s') : Framed low visible P (tryCatch m f) A where
  grows s := by
    have hfirst := hm.grows s
    rw [Attempt.outcome_tryCatch]
    cases h : m.outcome s with
    | mk r s₁ =>
        rw [h] at hfirst
        cases r with
        | ok a => exact hfirst
        | error e => exact hfirst.trans (hgrows e s₁)
  frames s t hs hpre hframes hu a s' hrun := by
    have hu₁ : (m.outcome t).2.supply.Unwrapped := by
      rw [Attempt.outcome_tryCatch] at hu
      cases h : m.outcome t with
      | mk r t₁ =>
          rw [h] at hu
          cases r with
          | ok a => exact hu
          | error e => exact hu.of_le (hgrows e t₁)
    have hfirst : m.Returns s a s' := by
      unfold Attempt.Returns at hrun ⊢
      rw [Attempt.outcome_tryCatch] at hrun
      cases h : m.outcome s with
      | mk r s₁ =>
          rw [h] at hrun
          cases r with
          | ok a => exact hrun
          | error e => exact absurd hrun (hfails e s₁ a s')
    obtain ⟨hs', ha, t', hrun', hrest⟩ := hm.frames s t hs hpre hframes hu₁ a s' hfirst
    refine ⟨hs', ha, t', ?_, hrest⟩
    unfold Attempt.Returns
    rw [Attempt.outcome_tryCatch, hrun']

end Framed

theorem blaming_framed {e : Expr} {steps : Infer α} (h : Framed low visible P steps A) :
    Framed low visible P (blaming e steps) A :=
  h.orElseFail (fun _ _ => le_rfl) fun _ _ _ _ hrun => by cases hrun

theorem modify_framed {f : State → State} (hsupply : ∀ s, (f s).supply = s.supply)
    (hsubst : ∀ s, (f s).subst = s.subst) (hfree : ∀ s, (f s).free = s.free)
    (hheld : ∀ s, (f s).held = s.held) : Framed low visible P (modify f : Infer PUnit) fun _ => ⊤ where
  grows s := (hsupply s).ge
  frames s t hs _ hframes _ a s' hrun := by
    cases hrun
    refine ⟨⟨?_, ?_, ?_⟩, trivial, f t, rfl, ⟨?_, ?_, ?_, ?_, ?_, ?_⟩, fun name _ => by rw [hfree]⟩
    · rw [hsupply, hsubst]
      exact hs.subst
    · rw [hheld]
      exact hs.held
    · rw [hsupply, hfree]
      exact hs.free
    · rw [hsupply, hsupply, hframes.supply]
    · rw [hsupply]
      exact hframes.above
    · rw [hsubst, hsubst]
      exact hframes.image
    · rw [hsubst]
      exact hframes.within
    · rw [hfree, hfree]
      exact hframes.free
    · rw [hfree]
      exact hframes.freeAbove

theorem warn_framed (f : Fault) : Framed low visible P (warn f) fun _ => ⊤ :=
  modify_framed (fun _ => rfl) (fun _ => rfl) (fun _ => rfl) fun _ => rfl

/-- Steps that hand out variables do the same where the next variable is the same. -/
theorem fresh_framed {steps : Fresh α} (h : Keeps freshWatch (P ⊓ Above low) steps A) :
    Framed low visible P (fresh steps) A where
  grows s := h.grows s.supply
  frames s t hs hpre hframes hu a s' hrun := by
    have hgrows := h.grows s.supply
    have hkeeps := h.keeps s.supply
    unfold Attempt.Returns at hrun
    rw [outcome_fresh] at hrun hu
    rw [hframes.supply] at hu
    cases hout : Attempt.outcome steps s.supply with
    | mk r supply =>
        rw [hout] at hrun hu hgrows hkeeps
        cases hrun
        obtain ⟨-, ha⟩ := hkeeps hu trivial ⟨hpre, hframes.above⟩
        refine ⟨hs.advance hgrows hu, ha, { t with supply }, ?_, hframes.advance hgrows hu,
          fun _ _ => rfl⟩
        unfold Attempt.Returns
        rw [outcome_fresh, hframes.supply, hout]

theorem freshVar_framed : Framed low visible P freshVar (Ty.inScopeOf (From low)) := by
  refine (fresh_framed (Formulary.fresh_keeps (F := From low) fun _ h => h.2)).bind fun x => ?_
  exact Framed.pure fun n h => Ty.within_var h.2

theorem known_framed (u : Ty) :
    Framed low visible (u.inScopeOf (From low)) (known u) (Ty.inScopeOf (From low)) where
  grows _ := le_rfl
  frames s t hs hu hframes _ a s' hrun := by
    cases hrun
    refine ⟨hs, hframes.inScopeOf_apply hs hu, t, ?_, hframes, fun _ _ => rfl⟩
    have hsame := hframes.apply_eq (Ty.inScopeOf_iff.1 hu).2
    show (Except.ok (t.subst.apply u), t) = _
    rw [hsame]

theorem mapM_known_framed (us : List Ty) :
    Framed low visible (Every (Ty.inScopeOf (From low)) us) (us.mapM known)
      (Every (Ty.inScopeOf (From low))) :=
  Framed.mapM fun u hu => (known_framed u).of_pre fun _ h => h u hu

theorem unify_framed (a b : Ty) :
    Framed low visible (a.inScopeOf (From low) ⊓ b.inScopeOf (From low)) (unify c a b)
      fun _ => ⊤ where
  grows := (unify_keeps c a b).grows
  frames s t hs hpre hframes hu r s' hrun := by
    obtain ⟨ha, hawithin⟩ := Ty.inScopeOf_iff.1 hpre.1
    obtain ⟨hb, hbwithin⟩ := Ty.inScopeOf_iff.1 hpre.2
    obtain ⟨line, hout⟩ := outcome_unify c a b s
    obtain ⟨line', hout'⟩ := outcome_unify c a b t
    rw [hframes.apply_eq hawithin, hframes.apply_eq hbwithin] at hout'
    have hkeeps := (unify_keeps c a b).keeps s
    unfold Attempt.Returns at hrun
    rw [hrun] at hkeeps
    rw [hout] at hrun
    cases hunify : Ty.unify (s.subst.apply a) (s.subst.apply b) with
    | error e =>
        rw [hunify] at hrun
        cases hrun
    | ok found =>
        rw [hunify] at hrun hout'
        cases hrun
        have hawithin' := hframes.within_apply hawithin
        have hbwithin' := hframes.within_apply hbwithin
        have hfound : found.Within (From low) :=
          (Ty.unify_mostGeneral hawithin'.1 hbwithin'.1 hunify).within fun x hx =>
            (List.mem_append.1 hx).elim (hawithin'.2 x) (hbwithin'.2 x)
        have hlogged : (s.logged c line).Frames low visible (t.logged c line') := by
          refine ⟨?_, ?_, ?_, ?_, ?_, ?_⟩
          all_goals simp only [State.logged_supply, State.logged_subst, State.logged_free]
          exacts [hframes.supply, hframes.above, hframes.image, hframes.within, hframes.free,
            hframes.freeAbove]
        have hsupply : ((t.logged c line').refine found).supply =
            ((s.logged c line).refine found).supply := (hlogged.refine hfound).supply
        rw [hout'] at hu
        have hu' : ((s.logged c line).refine found).supply.Unwrapped := hsupply ▸ hu
        obtain ⟨hs', -⟩ := hkeeps hu' hs ⟨ha, hb⟩
        refine ⟨hs', trivial, _, hout', hlogged.refine hfound, fun name _ => ?_⟩
        show (t.logged c line').free.lookup name = _
        rw [State.logged_free]

theorem outcome_freeName (name : String) (s : State) :
    (freeName name).outcome s =
      match s.free.lookup name with
      | some id => (.ok (.var id), s)
      | none => (.ok (.var s.supply.next),
          { s with supply := s.supply.advance, free := (name, s.supply.next) :: s.free }) := by
  unfold freeName
  rw [Attempt.outcome_bind, Attempt.outcome_get]
  cases hlookup : s.free.lookup name with
  | some id => simp only [hlookup, Attempt.outcome_pure]
  | none =>
      simp only [hlookup]
      rfl

theorem freeName_framed (name : String) :
    Framed low visible (Known (visible name)) (freeName name) (Ty.inScopeOf (From low)) where
  grows := (freeName_keeps (P := ⊤) name).grows
  frames s t hs hvisible hframes hu a s' hrun := by
    have hsame := hframes.free name hvisible
    unfold Attempt.Returns at hrun ⊢
    rw [outcome_freeName] at hrun hu
    rw [outcome_freeName, hsame]
    rw [hsame] at hu
    cases hlookup : s.free.lookup name with
    | some id =>
        rw [hlookup] at hrun
        cases hrun
        obtain ⟨before, after, hfree, -⟩ := List.lookup_eq_some_iff.1 hlookup
        have hmem : (name, id) ∈ s.free := by simp [hfree]
        exact ⟨hs, Ty.within_var ⟨hs.free _ hmem, hframes.freeAbove _ hmem⟩, t, rfl, hframes,
          fun _ _ => rfl⟩
    | none =>
        rw [hlookup] at hrun hu
        cases hrun
        rw [hframes.supply] at hu ⊢
        have hnext : s.supply.advance.next = s.supply.next + 1 := hu.next_advance
        have hlater := hframes.advance s.supply.le_advance hu
        have hsound := hs.advance s.supply.le_advance hu
        refine ⟨⟨hsound.subst, hsound.held, List.forall_mem_cons.2 ⟨?_, hsound.free⟩⟩,
          Ty.within_var ⟨?_, hframes.above⟩, _, rfl, ?_, fun other hother => ?_⟩
        · show s.supply.next < s.supply.advance.next
          omega
        · show s.supply.next < s.supply.advance.next
          omega
        · refine ⟨hlater.supply, hlater.above, hlater.image, hlater.within, fun other hother => ?_,
            List.forall_mem_cons.2 ⟨hframes.above, hframes.freeAbove⟩⟩
          dsimp only
          rw [List.lookup_cons, List.lookup_cons, hframes.free other hother]
        · have hne : (other == name) = false := by
            rw [beq_eq_false_iff_ne]
            rintro rfl
            exact hother hvisible
          dsimp only
          rw [List.lookup_cons, hne]

theorem instantiate_framed (u : Ty) :
    Framed low visible (u.schemeOf (From low)) (instantiate u) (Ty.inScopeOf (From low)) := by
  have hscope := Formulary.instantiate_keeps u
  refine fresh_framed ⟨hscope.grows, fun supply hu hs hpre => ⟨trivial, ?_⟩⟩
  have hbelow := (hscope.keeps supply hu hs hpre.1.1).2
  refine Ty.inScopeOf_iff.2 ⟨hbelow, hbelow.1, fun y hy => ?_⟩
  obtain ⟨ρ, hρ, hresult⟩ := u.instantiate_freshens supply hu
  change y ∈ (u.instantiate.run supply).1.freeOccurrences at hy
  rw [hresult] at hy
  obtain ⟨x, hx, hy⟩ := Ty.mem_freeOccurrences_bind hy
  by_cases hids : x ∈ u.unquantify.1
  · obtain ⟨z, hz, hlow, -⟩ := hρ.fresh x hids
    obtain rfl : y = z := by simpa [hz, Ty.freeOccurrences] using hy
    exact hpre.2.trans hlow
  · obtain rfl : y = x := by simpa [hρ.other x hids, Ty.freeOccurrences] using hy
    exact hpre.1.2 y (Ty.mem_freeOccurrences_iff_unquantify.2 ⟨hx, hids⟩)

/-- The bindings of a pattern. -/
def patternEnv (low : Int) (p : Pattern) (env : TypeEnv) : Upward :=
  Every (fun b : String × Ty => b.2.inScopeOf (From low)) env.entries ⊓
    Known (∀ name, (env.get? name).isSome = true ↔ name ∈ p.vars)

theorem bindPattern_framed (e : Expr) (p : Pattern) (scrutinee : Ty) :
    Framed low visible (Known (c.data.isWhole = true) ⊓ scrutinee.inScopeOf (From low))
      (bindPattern c e p scrutinee) (patternEnv low p) where
  grows := (bindPattern_keeps c e p scrutinee).grows
  frames s t hs hpre hframes hu bindings s' hrun := by
    obtain ⟨hwhole, hscrutinee⟩ := hpre
    obtain ⟨hbelow, hwithin⟩ := Ty.inScopeOf_iff.1 hscrutinee
    obtain ⟨hbelow', hwithin'⟩ := Ty.inScopeOf_iff.1 (hframes.inScopeOf_apply hs hscrutinee)
    have hkeeps := (bindPattern_keeps c e p scrutinee).keeps s
    have hcheck := Pattern.check_keeps (P := Above low) (F := From low) c.data (fun _ h => h) p
      (s.subst.apply scrutinee)
    have hgrows := hcheck.grows s.supply
    have hkeeps' := hcheck.keeps s.supply
    unfold Attempt.Returns at hrun ⊢
    rw [hrun] at hkeeps
    rw [outcome_bindPattern] at hrun hu
    rw [outcome_bindPattern, hframes.apply_eq hwithin, hframes.supply]
    rw [hframes.apply_eq hwithin, hframes.supply] at hu
    cases hout : Attempt.outcome (p.check c.data (s.subst.apply scrutinee)) s.supply with
    | mk r supply =>
        rw [hout] at hrun hu hgrows hkeeps'
        cases r with
        | error f => cases hrun
        | ok typing =>
            cases hrun
            obtain ⟨hscope, htyping⟩ :=
              (hkeeps' hu trivial ⟨⟨hwhole, hframes.above⟩, hbelow', hwithin'⟩).2
            obtain ⟨hs', -⟩ := hkeeps hu hs ⟨hwhole, hbelow⟩
            refine ⟨hs', ⟨fun b hb => ?_, fun name => ?_⟩, _, rfl,
              (hframes.advance hgrows hu).refine htyping.subst, fun _ _ => rfl⟩
            · have hget := (SortedMap.get?_eq_some_iff _ b.1 b.2).2 hb
              exact Ty.inScopeOf_iff.2 ⟨hscope.bindings _ _ hget, htyping.bindings _ _ hget⟩
            · exact Pattern.isSome_bindings_of_check hout name

theorem reviewCases_framed (e : Expr) (scrutinee : Ty) (ps : List Pattern) :
    Framed low visible P (reviewCases c e scrutinee ps) fun _ => ⊤ := by
  have hunreachable : ∀ {P : Upward}, Framed low visible P
      ((Pattern.unreachable ps).forM fun i => warn (.unreachable (ps[i]?.getD .wildcard) i))
      fun _ => ⊤ := Framed.forM fun _ _ => warn_framed _
  refine (fresh_framed (Pattern.missing_grows c.data ps scrutinee).keeps).bind fun missing => ?_
  refine Framed.ite hunreachable (Framed.ite ?_ ?_)
  · rw [failAt_bind]
    exact Framed.failAt _ _
  · exact (warn_framed _).bind fun _ => hunreachable

theorem takeValue_framed (field actual : Ty) :
    Framed low visible (field.inScopeOf (From low) ⊓ actual.inScopeOf (From low))
      (match field with
        | .var _ => unify c field actual
        | _ => return ()) fun _ => ⊤ := by
  split
  · exact unify_framed _ actual
  · exact Framed.pure fun _ _ => trivial

theorem bindValue_framed (kind : ParamKind) (field : Ty) (refusal : Fault) (actual : Ty) :
    Framed low visible (field.inScopeOf (From low) ⊓ actual.inScopeOf (From low))
      (bindValue c kind field refusal actual) fun _ => ⊤ := by
  have htake : Framed low visible (field.inScopeOf (From low) ⊓ actual.inScopeOf (From low)) _
      fun _ => ⊤ := takeValue_framed (c := c) field actual
  have hrefuse : Framed low visible (field.inScopeOf (From low) ⊓ actual.inScopeOf (From low))
      (throw refusal : Infer Unit) fun _ => ⊤ := Framed.throw _
  have hpass : Framed low visible (field.inScopeOf (From low) ⊓ actual.inScopeOf (From low))
      (pure () : Infer Unit) fun _ => ⊤ := Framed.pure fun _ _ => trivial
  cases actual with
  | var => exact hpass
  | prim => exact Framed.ite hpass hrefuse
  | nat => exact Framed.ite htake hrefuse
  | tag => exact Framed.ite htake hrefuse
  | blank | data | fn | poly => exact hrefuse

theorem bindField_framed (v : VariantInstance) (index : Nat) (field : FieldInstance) (arg : Expr)
    (argType : Ty) :
    Framed low visible (field.type.inScopeOf (From low) ⊓ argType.inScopeOf (From low))
      (bindField c v index field arg argType) fun _ => ⊤ := by
  unfold bindField
  refine Framed.ite (unify_framed field.type argType) ?_
  split
  · rename_i value hvalue
    split
    · rename_i id htype
      exact (unify_framed _ value).of_pre fun n h => ⟨htype ▸ h.1, within_literal? hvalue⟩
    · exact Framed.pure fun _ _ => trivial
  · exact Framed.throw _
  · refine (known_framed argType).followedBy (fun n h => h.2) fun actual => ?_
    exact (bindValue_framed _ _ _ actual).of_pre fun n h => ⟨h.1.1, h.2⟩

/-- The fields of a variant. -/
def fieldsInScopeOf (F : Int → Prop) (fields : List FieldInstance) : Upward :=
  Every (fun f : FieldInstance => f.type.inScopeOf F) fields

/-- The types of arguments. -/
def argsInScopeOf (F : Int → Prop) (args : List (Expr × Ty)) : Upward :=
  Every (fun a : Expr × Ty => a.2.inScopeOf F) args

theorem bindFields_framed (v : VariantInstance) (index : Nat) (fields : List FieldInstance)
    (args : List (Expr × Ty)) :
    Framed low visible (fieldsInScopeOf (From low) fields ⊓ argsInScopeOf (From low) args)
      (bindFields c v index fields args) fun _ => ⊤ := by
  induction fields generalizing index args with
  | nil =>
      rw [bindFields]
      · exact Framed.pure fun _ _ => trivial
      · simp
  | cons field fields ih =>
      cases args with
      | nil =>
          rw [bindFields]
          · exact Framed.pure fun _ _ => trivial
          · simp
      | cons arg args =>
          rw [bindFields]
          refine (bindField_framed v index field arg.1 arg.2).followedBy
            (fun n h => ⟨(every_cons.1 h.1).1, (every_cons.1 h.2).1⟩) fun _ => ?_
          exact (ih (index + 1) args).of_pre fun n h =>
            ⟨(every_cons.1 h.1.1).2, (every_cons.1 h.1.2).2⟩

theorem bindElements_framed (element : Ty) (args : List (Expr × Ty)) :
    Framed low visible (element.inScopeOf (From low) ⊓ argsInScopeOf (From low) args)
      (bindElements c element args) fun _ => ⊤ := by
  induction args with
  | nil => exact Framed.pure fun _ _ => trivial
  | cons arg args ih =>
      rw [bindElements]
      refine (blaming_framed (unify_framed element arg.2)).followedBy
        (fun n h => ⟨h.1, (every_cons.1 h.2).1⟩) fun _ => ?_
      exact ih.of_pre fun n h => ⟨h.1.1, (every_cons.1 h.1.2).2⟩

/-- What a constructor is made for. -/
def variantInScopeOf (F : Int → Prop) (v : VariantInstance) : Upward :=
  v.result.inScopeOf F ⊓ fieldsInScopeOf F v.fields

theorem arguments_framed (e : Expr) (name : String) (args : List (Expr × Ty)) (v : VariantInstance) :
    Framed low visible (variantInScopeOf (From low) v ⊓ argsInScopeOf (From low) args) (do
      if args.length = v.fields.length then blaming e (bindFields c v 0 v.fields args)
      else if areElements v (args.map (·.1)) then
        let dims := v.fields.length - 1
        blaming e (bindFields c v 0 (v.fields.take dims) (args.take dims))
        bindElements c ((v.fields.getLast?.map (·.type)).getD .blank) (args.drop dims)
      else failAt e (.constructorArity name v.fields.length args.length)
      known v.result) (Ty.inScopeOf (From low)) := by
  have hresult : ∀ {Q : Upward}, (∀ n, Q n → variantInScopeOf (From low) v n) →
      Framed low visible Q (known v.result) (Ty.inScopeOf (From low)) := fun hQ =>
    (known_framed v.result).of_pre fun n h => (hQ n h).1
  refine Framed.ite ?_ (Framed.iteOf (fun hshaped => ?_) fun _ => ?_)
  · refine (blaming_framed (bindFields_framed v 0 v.fields args)).followedBy
      (fun n h => ⟨h.1.2, h.2⟩) fun _ => ?_
    exact hresult fun n h => h.1.1
  · obtain ⟨last, hlast⟩ := exists_last_of_areElements hshaped
    refine (blaming_framed (bindFields_framed v 0 _ _)).followedBy (fun n h =>
      ⟨fun f hf => h.1.2 f (List.mem_of_mem_take hf),
        fun a ha => h.2 a (List.mem_of_mem_take ha)⟩) fun _ => ?_
    refine (bindElements_framed _ _).followedBy (fun n h => ?_) fun _ => ?_
    · rw [hlast]
      exact ⟨h.1.1.2 last (List.mem_of_getLast? hlast),
        fun a ha => h.1.2 a (List.mem_of_mem_drop ha)⟩
    · exact hresult fun n h => h.1.1.1
  · rw [failAt_bind]
    exact Framed.failAt _ _

theorem inferConstruction_framed (e : Expr) (name : String) (args : List (Expr × Ty)) :
    Framed low visible (Known (c.data.isWhole = true) ⊓ argsInScopeOf (From low) args)
      (inferConstruction c e name args) (Ty.inScopeOf (From low)) := by
  have hvariant := c.data.instantiate_keeps (P := Above low) (F := From low) name fun _ h => h
  have hfresh : Framed low visible (Known (c.data.isWhole = true)) (fresh (c.data.instantiate name))
      (variantInScopeOf (From low)) :=
    (fresh_framed hvariant).weaken (fun n h => h) fun v n h =>
      ⟨Ty.inScopeOf_iff.2 ⟨h.1.1, h.2.1⟩, fun f hf => Ty.inScopeOf_iff.2 ⟨h.1.2 f hf, h.2.2 f hf⟩⟩
  refine (blaming_framed hfresh).followedBy (fun n h => h.1) fun v => ?_
  exact (arguments_framed e name args v).of_pre fun n h => ⟨h.2, h.1.2⟩

theorem unifyFor_framed (requirer : Requirer) (e : Expr) (a b : Ty) :
    Framed low visible (a.inScopeOf (From low) ⊓ b.inScopeOf (From low)) (unifyFor c requirer e a b)
      fun _ => ⊤ :=
  (unify_framed a b).orElseFail (fun _ _ => le_rfl) fun _ _ _ _ hrun => by cases hrun

theorem inferApplication_framed (e : Expr) (name : String) (u : Ty) (args : List Ty) :
    Framed low visible (u.schemeOf (From low) ⊓ Every (Ty.inScopeOf (From low)) args)
      (inferApplication c e name u args) (Ty.inScopeOf (From low)) := by
  unfold inferApplication
  refine (instantiate_framed u).followedBy (fun n h => h.1) fun fn => ?_
  refine (known_framed fn).followedBy (fun n h => h.2) fun fn' => ?_
  have hrest : ∀ {Q : Upward},
      (∀ n, Q n → fn.inScopeOf (From low) n ∧ Every (Ty.inScopeOf (From low)) args n) →
      Framed low visible Q (do
        let result ← freshVar
        unifyFor c (.function name) e fn (Ty.curry args result)
        known result) (Ty.inScopeOf (From low)) := by
    intro Q hQ
    refine freshVar_framed.bind fun result => ?_
    refine (unifyFor_framed _ e fn _).followedBy (fun n h =>
      ⟨(hQ n h.1).1, Ty.within_curry.2 ⟨(hQ n h.1).2, h.2⟩⟩) fun _ => ?_
    exact (known_framed result).of_pre fun n h => h.1.2
  split
  · refine Framed.ite ?_ (hrest fun n h => ⟨h.1.2, h.1.1.2⟩)
    rw [failAt_bind]
    exact Framed.failAt _ _
  · exact hrest fun n h => ⟨h.1.2, h.1.1.2⟩

theorem meetConstraints_framed (requirer : Requirer) (e : Expr)
    (constraints : List Signature.Constraint) :
    Framed low visible (Every (fun k : Signature.Constraint =>
        k.expected.inScopeOf (From low) ⊓ k.actual.inScopeOf (From low)) constraints)
      (meetConstraints c requirer e constraints) fun _ => ⊤ := by
  induction constraints with
  | nil => exact Framed.pure fun _ _ => trivial
  | cons k rest ih =>
      rw [meetConstraints]
      refine (unifyFor_framed requirer e _ _).followedBy (fun n h => (every_cons.1 h).1)
        fun _ => ?_
      exact ih.of_pre fun n h => (every_cons.1 h.1).2

theorem inferOperation_framed (e : Expr) (i : Structure) (op : Operation) (args : List Ty) :
    Framed low visible
      (Known (op.signature.isWhole = true) ⊓ Every (Ty.inScopeOf (From low)) args)
      (inferOperation c e i op args) (Ty.inScopeOf (From low)) := by
  unfold inferOperation
  refine (mapM_known_framed args).followedBy (fun n h => h.2) fun before => ?_
  have hcall : ∀ call : Signature.Call, Framed low visible
      (Known (call.operation.signature.isWhole = true) ⊓ Every (Ty.inScopeOf (From low)) call.args)
      (fresh call.interpret) (Signature.Outcome.inScopeOf (From low)) := fun call =>
    fresh_framed ((call.interpret_keepsOf (P := Above low) (F := From low) fun _ h => h).of_pre
      fun n h => ⟨⟨h.1.1, h.2⟩, h.1.2⟩)
  refine (blaming_framed (hcall _)).followedBy (fun n h => ⟨h.1.1, h.2⟩) fun o => ?_
  refine (meetConstraints_framed _ e o.constraints).followedBy (fun n h => h.2.2) fun _ => ?_
  refine Framed.ite ?_ ((known_framed o.type).of_pre fun n h => h.1.2.1)
  refine (mapM_known_framed args).followedBy (fun n h => h.1.1.1.2) fun after => ?_
  refine (blaming_framed (fresh_framed (c.registry.validate_keeps i.name op.name after))).bind
    fun _ => ?_
  exact (known_framed o.type).of_pre fun n h => h.1.1.1.2.1

/-- The names of a list that have to be looked up among the names that nothing declares are visible;
those of another list are in the environment. -/
def LooksUp (c : Context) (env : TypeEnv) (visible : String → Prop) (bound names : List String) :
    Prop :=
  (∀ name ∈ bound, knows env name = true) ∧
    ∀ name ∈ names, knows env name = false → c.registry.isOpen name = true → visible name

theorem LooksUp.mono {env : TypeEnv} {bound names names' : List String}
    (h : LooksUp c env visible bound names) (hnames : names' ⊆ names) :
    LooksUp c env visible bound names' :=
  ⟨h.1, fun name hname => h.2 name (hnames hname)⟩

/-- Behind a pattern its variables are in the environment too. -/
theorem LooksUp.extend {env bindings : TypeEnv} {bound names : List String} {p : Pattern}
    (h : LooksUp c env visible bound names)
    (hbindings : ∀ name, (bindings.get? name).isSome = true ↔ name ∈ p.vars) :
    LooksUp c (env.extend bindings.entries) visible (p.vars ++ bound) names := by
  unfold LooksUp
  rw [knows_extend hbindings]
  refine ⟨fun name hname => ?_, fun name hname hnew => ?_⟩
  · rcases List.mem_append.1 hname with hvar | hbound
    · simp [hvar]
    · simp [h.1 name hbound]
  · simp only [Bool.or_eq_false_iff] at hnew
    exact h.2 name hname hnew.2

theorem TypeEnv.inScopeOf_extend {F : Int → Prop} {env bindings : TypeEnv} {n : Int}
    (h : env.inScopeOf F n)
    (hbindings : Every (fun b : String × Ty => b.2.inScopeOf F) bindings.entries n) :
    TypeEnv.inScopeOf F (env.extend bindings.entries) n := by
  intro x u hx
  rw [TypeEnv.get?_extend, Option.or_eq_some_iff] at hx
  rcases hx with hx | ⟨-, hx⟩
  · exact Ty.schemeOf_of_inScopeOf (hbindings (x, u) ((SortedMap.get?_eq_some_iff _ _ _).1 hx))
  · exact h x u hx

theorem inferName_framed (env : TypeEnv) (name : String) :
    Framed low visible
      (Known (c.registry.isWhole = true) ⊓ env.inScopeOf (From low) ⊓
        Known (knows env name = false → c.registry.isOpen name = true → visible name))
      (inferName c env name) (Ty.inScopeOf (From low)) := by
  unfold inferName
  split
  · rename_i u hget
    exact (instantiate_framed u).of_pre fun n h => h.1.2 name u hget
  · rename_i hget
    have hnew : knows env name = false := by simp [knows, hget]
    split
    · exact (inferConstruction_framed _ name []).of_pre fun n h =>
        ⟨Registry.isWhole_data h.1.1, every_nil _ n⟩
    · rename_i i op hop hvariant
      refine Framed.iteOf (fun _ => ?_) fun hempty =>
        (freeName_framed name).of_pre fun n h => h.2 hnew (Registry.isOpen_iff.2 ⟨?_, ?_⟩)
      · exact (inferOperation_framed _ i op []).of_pre fun n h =>
          ⟨(Registry.isWhole_of_operation? h.1.1 hop).2, every_nil _ n⟩
      · rintro ⟨d, written, fields⟩ hfound rfl
        exact hvariant d written hfound
      · rintro found hfound hnil
        cases hop.symm.trans hfound
        exact hempty (List.isEmpty_iff.2 hnil)
    · rename_i hop hvariant
      refine (freeName_framed name).of_pre fun n h =>
        h.2 hnew (Registry.isOpen_iff.2 ⟨?_, fun found hfound => ?_⟩)
      · rintro ⟨d, written, fields⟩ hfound rfl
        exact hvariant d written hfound
      · cases hop.symm.trans hfound

theorem inferCall_framed (env : TypeEnv) (name : String) (args : List Expr) (types : List Ty) :
    Framed low visible
      (Known (c.registry.isWhole = true) ⊓ env.inScopeOf (From low) ⊓
        Every (Ty.inScopeOf (From low)) types)
      (inferCall c env name args types) (Ty.inScopeOf (From low)) := by
  unfold inferCall
  refine Framed.ite ?_ ?_
  · refine (inferConstruction_framed _ name (args.zip types)).of_pre fun n h =>
      ⟨Registry.isWhole_data h.1.1, fun a ha => h.2 a.2 (List.of_mem_zip ha).2⟩
  · split
    · rename_i u hget
      exact (inferApplication_framed _ name u types).of_pre fun n h => ⟨h.1.2 name u hget, h.2⟩
    · rename_i i op _ hop
      exact (inferOperation_framed _ i op types).of_pre fun n h =>
        ⟨(Registry.isWhole_of_operation? h.1.1 hop).2, h.2⟩
    · exact Framed.failAt _ _

/-- What inference starts from: whole declarations and an environment in scope, of variables from a
number on. -/
def framing (c : Context) (env : TypeEnv) (low : Int) : Upward :=
  Known (c.registry.isWhole = true) ⊓ env.inScopeOf (From low)

theorem agree_framed (body : Expr) (result : Option Ty) (u : Ty) :
    Framed low visible
      (Every (Ty.inScopeOf (From low)) result.toList ⊓ u.inScopeOf (From low))
      (agree c body result u) fun _ => ⊤ := by
  cases result with
  | none => exact Framed.pure fun _ _ => trivial
  | some result =>
      exact blaming_framed ((unify_framed result u).of_pre fun n h => ⟨h.1 result (by simp), h.2⟩)

mutual

theorem infer_framed (env : TypeEnv) (bound : List String) (e : Expr) :
    Framed low visible
      (framing c env low ⊓ Known (e.isWhole = true) ⊓
        Known (LooksUp c env visible bound (e.freeObjects bound)))
      (infer c env e) (Ty.inScopeOf (From low)) := by
  cases e with
  | blank => exact Framed.throw _
  | const value => exact Framed.pure fun _ _ => Ty.within_scalar
  | object name =>
      refine (inferName_framed env name).of_pre fun n h => ⟨h.1.1, fun hnew => ?_⟩
      refine h.2.2 name ?_ hnew
      rw [Expr.freeObjects, if_neg fun hbound => by simp [h.2.1 name hbound] at hnew]
      exact List.mem_singleton_self name
  | operation name args =>
      rw [infer]
      refine (inferList_framed env bound args).followedBy (fun n h => h) fun types => ?_
      exact (inferCall_framed env name args types).of_pre fun n h => ⟨h.1.1.1, h.2⟩
  | matching scrutinee cases =>
      rw [infer]
      have hwhole : ∀ n, Known ((Expr.matching scrutinee cases).isWhole = true) n →
          scrutinee.isWhole = true ∧ Expr.isWholeCases cases = true := fun n h =>
        Bool.and_eq_true_iff.1 h
      refine Framed.iteOf (fun _ => ?_) fun hnonempty => ?_
      · rw [failAt_bind]
        exact Framed.failAt _ _
      · have hne : cases ≠ [] := by simpa using hnonempty
        refine (infer_framed env bound scrutinee).followedBy (fun n h =>
          ⟨⟨h.1.1, (hwhole n h.1.2).1⟩, h.2.mono (List.subset_append_left ..)⟩) fun u => ?_
        refine (inferCases_framed env bound (.matching scrutinee cases) u none cases).followedBy
          (fun n h => ⟨⟨⟨h.1.1.1, (hwhole n h.1.1.2).2⟩, h.1.2.mono (List.subset_append_right ..)⟩,
            h.2, every_nil _ n⟩) fun result => ?_
        refine (known_framed u).followedBy (fun n h => h.1.2) fun u' => ?_
        refine (reviewCases_framed _ u' _).bind fun _ => ?_
        refine (known_framed _).of_pre fun n h => ?_
        obtain ⟨r, rfl⟩ := Option.isSome_iff_exists.1 (h.1.1.2.2 (.inr hne))
        exact h.1.1.2.1 r (by simp)

theorem inferList_framed (env : TypeEnv) (bound : List String) (es : List Expr) :
    Framed low visible
      (framing c env low ⊓ Known (Expr.isWholeList es = true) ⊓
        Known (LooksUp c env visible bound (Expr.freeObjectsList bound es)))
      (inferList c env es) (Every (Ty.inScopeOf (From low))) := by
  cases es with
  | nil => exact Framed.pure fun n _ => every_nil _ n
  | cons e es =>
      rw [inferList]
      have hwhole : ∀ n, Known (Expr.isWholeList (e :: es) = true) n →
          e.isWhole = true ∧ Expr.isWholeList es = true := fun n h =>
        Bool.and_eq_true_iff.1 h
      refine (infer_framed env bound e).followedBy (fun n h =>
        ⟨⟨h.1.1, (hwhole n h.1.2).1⟩, h.2.mono (List.subset_append_left ..)⟩) fun u => ?_
      refine (inferList_framed env bound es).followedBy (fun n h =>
        ⟨⟨h.1.1.1, (hwhole n h.1.1.2).2⟩, h.1.2.mono (List.subset_append_right ..)⟩) fun us => ?_
      exact Framed.pure fun n h => every_cons.2 ⟨h.1.2, h.2⟩

theorem inferCases_framed (env : TypeEnv) (bound : List String) (e : Expr) (scrutinee : Ty)
    (result : Option Ty) (cases : List (Pattern × Expr)) :
    Framed low visible
      (framing c env low ⊓ Known (Expr.isWholeCases cases = true) ⊓
        Known (LooksUp c env visible bound (Expr.freeObjectsCases bound cases)) ⊓
        (scrutinee.inScopeOf (From low) ⊓ Every (Ty.inScopeOf (From low)) result.toList))
      (inferCases c env e scrutinee result cases)
      fun r => Every (Ty.inScopeOf (From low)) r.toList ⊓
        Known (result.isSome ∨ cases ≠ [] → r.isSome) := by
  match cases with
  | [] =>
      rw [inferCases]
      exact Framed.pure fun n h => ⟨h.2.2, fun hsome => by simpa using hsome⟩
  | (p, body) :: rest =>
      rw [inferCases_cons]
      have hwhole : ∀ n, Known (Expr.isWholeCases ((p, body) :: rest) = true) n →
          body.isWhole = true ∧ Expr.isWholeCases rest = true := fun n h =>
        Bool.and_eq_true_iff.1 h
      refine (bindPattern_framed e p scrutinee).followedBy
        (fun n h => ⟨Registry.isWhole_data h.1.1.1.1, h.2.1⟩) fun bindings => ?_
      refine (infer_framed (env.extend bindings.entries) (p.vars ++ bound) body).followedBy
        (fun n h => ⟨⟨⟨h.1.1.1.1.1, TypeEnv.inScopeOf_extend h.1.1.1.1.2 h.2.1⟩,
          (hwhole n h.1.1.1.2).1⟩,
          LooksUp.extend (h.1.1.2.mono (List.subset_append_left ..)) h.2.2⟩) fun u => ?_
      refine (agree_framed body result u).followedBy (fun n h => ⟨h.1.1.2.2, h.2⟩) fun _ => ?_
      refine (inferCases_framed env bound e scrutinee (some (result.getD u)) rest).weaken
        (fun n h => ⟨⟨⟨h.1.1.1.1.1.1, (hwhole n h.1.1.1.1.1.2).2⟩,
          h.1.1.1.1.2.mono (List.subset_append_right ..)⟩, h.1.1.1.2.1, ?_⟩) fun r n h =>
          ⟨h.1, fun _ => h.2 (.inl rfl)⟩
      cases result with
      | none => exact every_cons.2 ⟨h.1.2, every_nil _ n⟩
      | some result => exact h.1.1.1.2.2

end

end Inference

end Formulary
