import Formulary.Proofs.Inferring

/-!
What steps of inference find out, as a statement about all the ways to put types for variables. A
state leaves some valuations open. Steps rule out those under which what they stand for does not
hold, and no other: `sound` says that they rule out enough, `complete` that they rule out no more.
-/

namespace Formulary

/-- A type for every variable. -/
abbrev Valuation := Int → Ty

/-- The types of names, as far as they have one. -/
abbrev Naming := String → Option Ty

namespace Valuation

def IsMono (θ : Valuation) : Prop := ∀ x, (θ x).isMono = true

/-- Two valuations give the same types to the variables below a number. -/
def AgreesBelow (n : Int) (θ θ' : Valuation) : Prop := ∀ x, x < n → θ x = θ' x

theorem AgreesBelow.refl (n : Int) (θ : Valuation) : AgreesBelow n θ θ := fun _ _ => rfl

theorem AgreesBelow.trans {m n : Int} {θ θ' θ'' : Valuation} (h : AgreesBelow m θ θ')
    (h' : AgreesBelow n θ' θ'') (hle : m ≤ n) : AgreesBelow m θ θ'' := fun x hx =>
  (h x hx).trans (h' x (Int.lt_of_lt_of_le hx hle))

theorem AgreesBelow.bind_eq {n : Int} {θ θ' : Valuation} (h : AgreesBelow n θ θ') {t : Ty}
    (ht : t.inScope n) : t.bind θ = t.bind θ' :=
  Ty.bind_congr fun x hx => h x (ht.2 x hx)

theorem AgreesBelow.map_bind_eq {n : Int} {θ θ' : Valuation} (h : AgreesBelow n θ θ')
    {ts : List Ty} (hts : Every Ty.inScope ts n) : ts.map (·.bind θ) = ts.map (·.bind θ') :=
  List.map_congr_left fun t ht => h.bind_eq (hts t ht)

theorem AgreesBelow.option_bind_eq {n : Int} {θ θ' : Valuation} (h : AgreesBelow n θ θ')
    {t : Option Ty} (ht : Every Ty.inScope t.toList n) : t.map (·.bind θ) = t.map (·.bind θ') :=
  Option.map_congr fun u hu => h.bind_eq (ht u (Option.mem_toList.2 hu))

/-- The valuation that puts a type for one variable. -/
def set (θ : Valuation) (x : Int) (t : Ty) : Valuation := fun y => if y = x then t else θ y

theorem IsMono.set {θ : Valuation} (h : θ.IsMono) {x : Int} {t : Ty} (ht : t.isMono = true) :
    (θ.set x t).IsMono := by
  intro y
  unfold Valuation.set
  split
  · exact ht
  · exact h y

theorem agreesBelow_set (θ : Valuation) (n : Int) (t : Ty) : AgreesBelow n θ (θ.set n t) := by
  intro x hx
  rw [Valuation.set, if_neg (by omega)]

/-- A valuation makes nothing of a substitution that is not there already. -/
def Solves (θ : Valuation) (s : Subst) : Prop := ∀ x, (s.image x).bind θ = θ x

theorem Solves.bind_apply {θ : Valuation} {s : Subst} (h : θ.Solves s) {t : Ty}
    (ht : t.isMono = true) : (s.apply t).bind θ = t.bind θ := by
  rw [Subst.apply_eq_bind, Ty.bind_bind _ _ ht]
  exact Ty.bind_congr fun x _ => h x

theorem solves_empty (θ : Valuation) : θ.Solves ∅ := fun x => by simp [Ty.bind]

/-- A substitution in scope does not tell valuations apart that agree on the scope. -/
theorem Solves.of_agreesBelow {n : Int} {θ θ' : Valuation} {s : Subst} (h : θ.Solves s)
    (hs : s.inScope n) (hagree : AgreesBelow n θ θ') : θ'.Solves s := by
  intro x
  cases hget : s.get? x with
  | none => rw [Subst.image_of_get?_eq_none hget, Ty.bind]
  | some t =>
      obtain ⟨hx, ht⟩ := hs x t hget
      have hx' := h x
      rw [Subst.image_of_get?_eq_some hget] at hx' ⊢
      rw [← hagree.bind_eq ht, hx', hagree x hx]

theorem solves_compose {θ : Valuation} {s found : Subst} (hmono : s.MonoRange)
    (hnew : found.Within fun x => s.image x = .var x) :
    θ.Solves (s.compose found) ↔ θ.Solves s ∧ θ.Solves found := by
  constructor
  · intro h
    have hfound : θ.Solves found := by
      intro x
      cases hget : found.get? x with
      | none => rw [Subst.image_of_get?_eq_none hget, Ty.bind]
      | some t =>
          have hx := h x
          rwa [Subst.image_compose, (hnew x t hget).1, Subst.apply_var] at hx
    refine ⟨fun x => ?_, hfound⟩
    rw [← hfound.bind_apply (hmono x), ← Subst.image_compose, h x]
  · rintro ⟨h, hfound⟩ x
    rw [Subst.image_compose, hfound.bind_apply (hmono x), h x]

theorem solves_iff_of_mostGeneral {θ : Valuation} {found : Subst} {vs : List Int} {a b : Ty}
    (h : found.MostGeneral vs [(a, b)]) (ha : a.isMono = true) (hb : b.isMono = true) :
    θ.Solves found ↔ a.bind θ = b.bind θ := by
  constructor
  · intro hθ
    rw [← hθ.bind_apply ha, ← hθ.bind_apply hb, Subst.apply_eq_bind, Subst.apply_eq_bind,
      (unifies_cons.1 h.unifies).1]
  · intro hsame
    exact h.general θ (unifies_cons.2 ⟨hsame, unifies_nil θ⟩)

theorem solves_compose_iff {θ : Valuation} {s found : Subst} {a b : Ty} (hs : s.Settled)
    (hmono : s.MonoRange) (ha : a.isMono = true) (hb : b.isMono = true)
    (hfound : found.MostGeneral (Ty.pairVars (s.apply a) (s.apply b)) [(s.apply a, s.apply b)]) :
    θ.Solves (s.compose found) ↔ θ.Solves s ∧ a.bind θ = b.bind θ := by
  have hnew : found.Within fun x => s.image x = .var x := by
    refine hfound.within fun x hx => ?_
    rcases List.mem_append.1 hx with hx | hx
    · exact (hs.apply_within hmono ha).2 x hx
    · exact (hs.apply_within hmono hb).2 x hx
  rw [solves_compose hmono hnew, solves_iff_of_mostGeneral hfound
    (Subst.isMono_apply hmono ha) (Subst.isMono_apply hmono hb)]
  refine and_congr_right fun h => ?_
  rw [h.bind_apply ha, h.bind_apply hb]

end Valuation

section Explanations

variable {β γ : Type} {n : Int} {before between after : Valuation → Naming → Prop}

/-- What steps leave open, against what they stand for. Under every valuation that is left open the
judgement holds of the value `v`; and whatever the judgement holds of is the value under some
valuation that is left open, which differs on new variables only. -/
structure Explains (n : Int) (before after : Valuation → Naming → Prop) (v : Valuation → β)
    (J : Valuation → Naming → β → Prop) : Prop where
  sound : ∀ θ D, after θ D → before θ D ∧ J θ D (v θ)
  complete : ∀ θ D b, before θ D → J θ D b → ∃ θ', θ.AgreesBelow n θ' ∧ after θ' D ∧ v θ' = b

namespace Explains

variable {v : Valuation → β} {v' : Valuation → γ} {J L : Valuation → Naming → β → Prop}

theorem congr (h : Explains n before after v J)
    (hJ : ∀ θ D b, before θ D → (J θ D b ↔ L θ D b)) : Explains n before after v L where
  sound θ D hafter := by
    obtain ⟨hbefore, hj⟩ := h.sound θ D hafter
    exact ⟨hbefore, (hJ θ D _ hbefore).1 hj⟩
  complete θ D b hbefore hj := h.complete θ D b hbefore ((hJ θ D b hbefore).2 hj)

theorem congr_value {u : Valuation → β} (h : Explains n before after v J)
    (hu : ∀ θ D, after θ D → v θ = u θ) : Explains n before after u J where
  sound θ D hafter := by
    rw [← hu θ D hafter]
    exact h.sound θ D hafter
  complete θ D b hbefore hj := by
    obtain ⟨θ', hagree, hafter, rfl⟩ := h.complete θ D b hbefore hj
    exact ⟨θ', hagree, hafter, (hu θ' D hafter).symm⟩

/-- Nothing is found out, and the judgement holds of nothing but the value. -/
theorem of_iff (h : ∀ θ D b, before θ D → (J θ D b ↔ b = v θ)) :
    Explains n before before v J where
  sound θ D hbefore := ⟨hbefore, (h θ D _ hbefore).2 rfl⟩
  complete θ D b hbefore hj :=
    ⟨θ, .refl n θ, hbefore, ((h θ D b hbefore).1 hj).symm⟩

theorem trans {m : Int} {K : Valuation → β → Naming → γ → Prop} (h : Explains m before between v J)
    (h' : Explains n between after v' fun θ => K θ (v θ)) (hle : m ≤ n)
    (hlocal : ∀ θ θ', Valuation.AgreesBelow m θ θ' → K θ = K θ') :
    Explains m before after v' fun θ D d => ∃ b, J θ D b ∧ K θ b D d where
  sound θ D hafter := by
    obtain ⟨hbetween, hk⟩ := h'.sound θ D hafter
    obtain ⟨hbefore, hj⟩ := h.sound θ D hbetween
    exact ⟨hbefore, v θ, hj, hk⟩
  complete θ D d hbefore hd := by
    obtain ⟨b, hj, hk⟩ := hd
    obtain ⟨θ', hagree, hbetween, rfl⟩ := h.complete θ D b hbefore hj
    rw [hlocal θ θ' hagree] at hk
    obtain ⟨θ'', hagree', hafter, hvalue⟩ := h'.complete θ' D d hbetween hk
    exact ⟨θ'', hagree.trans hagree' hle, hafter, hvalue⟩

end Explains

end Explanations

/-- What is watched while steps run, and the valuations that a state leaves open. -/
structure View (σ ε : Type) extends Watch σ ε where
  admits : σ → Valuation → Naming → Prop

variable {σ ε α β γ δ : Type} {w : View σ ε} {P P' : Upward} {A A' : α → Upward} {B : γ → Upward}
  {read : α → Valuation → β} {read' : γ → Valuation → δ} {J L : Valuation → Naming → β → Prop}

/-- Steps that keep what is watched, and that stand for a judgement. -/
structure Finds (w : View σ ε) (P : Upward) (m : Attempt σ ε α) (A : α → Upward)
    (read : α → Valuation → β) (J : Valuation → Naming → β → Prop) : Prop
    extends Keeps w.toWatch P m A where
  finds : ∀ s a s', m.Returns s a s' → w.sound s → (w.supply s').Unwrapped →
    P (w.supply s).next → Explains (w.supply s).next (w.admits s) (w.admits s') (read a) J

namespace Finds

theorem weaken {m : Attempt σ ε α} (h : Finds w P m A read J) (hP : ∀ n, P' n → P n)
    (hA : ∀ a n, A a n → A' a n) : Finds w P' m A' read J where
  toKeeps := h.toKeeps.weaken hP hA
  finds s a s' hrun hs hs' hpre := h.finds s a s' hrun hs hs' (hP _ hpre)

theorem of_pre {m : Attempt σ ε α} (h : Finds w P m A read J) (hP : ∀ n, P' n → P n) :
    Finds w P' m A read J :=
  h.weaken hP fun _ _ => id

/-- Only what the judgement says where the steps start matters. -/
theorem congr {m : Attempt σ ε α} (h : Finds w P m A read J)
    (hJ : ∀ s, w.sound s → P (w.supply s).next → ∀ θ D b, w.admits s θ D → (J θ D b ↔ L θ D b)) :
    Finds w P m A read L where
  toKeeps := h.toKeeps
  finds s a s' hrun hs hs' hpre := (h.finds s a s' hrun hs hs' hpre).congr (hJ s hs hpre)

/-- What holds on the side may be used to say what steps stand for. -/
theorem of_known {m : Attempt σ ε α} {φ : Prop} (hkeeps : Keeps w.toWatch P m A)
    (hφ : ∀ n, P n → φ) (h : φ → Finds w P m A read J) : Finds w P m A read J where
  toKeeps := hkeeps
  finds s a s' hrun hs hs' hpre := (h (hφ _ hpre)).finds s a s' hrun hs hs' hpre

theorem and_known {m : Attempt σ ε α} {φ : α → Prop} (h : Finds w P m A read J)
    (hφ : ∀ s a s', m.Returns s a s' → w.sound s → (w.supply s').Unwrapped → P (w.supply s).next →
      φ a) : Finds w P m (fun a => A a ⊓ Known (φ a)) read J where
  toKeeps := h.toKeeps.and_known hφ
  finds := h.finds

theorem pure {a : α} (hA : ∀ n, P n → A a n)
    (hJ : ∀ s, w.sound s → P (w.supply s).next → ∀ θ D b, w.admits s θ D →
      (J θ D b ↔ b = read a θ)) : Finds w P (pure a) A read J where
  toKeeps := Keeps.pure hA
  finds s a' s' hrun hs _ hpre := by
    cases hrun
    exact Explains.of_iff (hJ s hs hpre)

theorem throw {e : ε} (h : ∀ n, P n → w.allowed e) : Finds w P (throw e) A read J where
  toKeeps := Keeps.throw h
  finds s a s' hrun := by cases hrun

theorem bind {m : Attempt σ ε α} {f : α → Attempt σ ε γ} {K : Valuation → β → Naming → δ → Prop}
    (hm : Finds w P m A read J)
    (hf : ∀ a, Finds w (P ⊓ A a) (f a) B read' fun θ => K θ (read a θ))
    (hlocal : ∀ n, P n → ∀ θ θ', Valuation.AgreesBelow n θ θ' → K θ = K θ') :
    Finds w P (m >>= f) B read' fun θ D d => ∃ b, J θ D b ∧ K θ b D d where
  toKeeps := hm.toKeeps.bind fun a => (hf a).toKeeps
  finds s d s' hrun hs hs' hpre := by
    obtain ⟨a, s₁, hfirst, hsecond⟩ := Attempt.returns_bind_iff.1 hrun
    have hgrows := hm.grows s
    have hgrows' := (hf a).grows s₁
    rw [hfirst] at hgrows
    rw [hsecond] at hgrows'
    have hs₁ : (w.supply s₁).Unwrapped := hs'.of_le hgrows'
    have hle := hs₁.next_le_next hgrows
    obtain ⟨hsound, ha⟩ := hm.keeps s (hfirst ▸ hs₁) hs hpre
    rw [hfirst] at hsound ha
    exact (hm.finds s a s₁ hfirst hs hs₁ hpre).trans
      ((hf a).finds s₁ d s' hsecond hsound hs' ⟨P.mono hle hpre, ha⟩) hle (hlocal _ hpre)

theorem followedBy {m : Attempt σ ε α} {f : α → Attempt σ ε γ}
    {K : Valuation → β → Naming → δ → Prop} (hm : Finds w P' m A read J) (hP : ∀ n, P n → P' n)
    (hf : ∀ a, Finds w (P ⊓ A a) (f a) B read' fun θ => K θ (read a θ))
    (hlocal : ∀ n, P n → ∀ θ θ', Valuation.AgreesBelow n θ θ' → K θ = K θ') :
    Finds w P (m >>= f) B read' fun θ D d => ∃ b, J θ D b ∧ K θ b D d :=
  (hm.of_pre hP).bind hf hlocal

/-- Steps that return nothing of interest: what they find out is a condition. -/
theorem before {m : Attempt σ ε α} {f : α → Attempt σ ε γ} {C : Valuation → Naming → Prop}
    {K : Valuation → Naming → δ → Prop}
    (hm : Finds w P' m A (fun _ _ => ()) fun θ D _ => C θ D) (hP : ∀ n, P n → P' n)
    (hf : ∀ a, Finds w (P ⊓ A a) (f a) B read' K)
    (hlocal : ∀ n, P n → ∀ θ θ', Valuation.AgreesBelow n θ θ' → K θ = K θ') :
    Finds w P (m >>= f) B read' fun θ D d => C θ D ∧ K θ D d := by
  refine (hm.followedBy (K := fun θ _ => K θ) hP hf fun n hn θ θ' hagree => ?_).congr
    fun s _ _ θ D d _ => ?_
  · rw [hlocal n hn θ θ' hagree]
  · simp

theorem tryCatch {m : Attempt σ ε α} {f : ε → Attempt σ ε α} (hm : Finds w P m A read J)
    (hf : ∀ e, Keeps w.toWatch (Known (w.allowed e)) (f e) A)
    (hfail : ∀ e s a s', ¬(f e).Returns s a s') : Finds w P (tryCatch m f) A read J where
  toKeeps := hm.toKeeps.tryCatch hf
  finds s a s' hrun hs hs' hpre := by
    refine hm.finds s a s' ?_ hs hs' hpre
    unfold Attempt.Returns at hrun ⊢
    rw [Attempt.outcome_tryCatch] at hrun
    cases hm : m.outcome s with
    | mk r s₁ =>
        cases r with
        | ok a' => simpa [hm] using hrun
        | error e =>
            simp only [hm] at hrun
            exact absurd hrun (hfail e s₁ a s')

theorem iteOf {c : Prop} [Decidable c] {m m' : Attempt σ ε α} (hthen : c → Finds w P m A read J)
    (helse : ¬c → Finds w P m' A read J) : Finds w P (if c then m else m') A read J := by
  split
  · rename_i h
    exact hthen h
  · rename_i h
    exact helse h

theorem ofExcept {r : Except ε α} (hA : ∀ n, P n → w.Allows A n r)
    (hJ : ∀ a, r = .ok a → ∀ θ D b, J θ D b ↔ b = read a θ) : Finds w P (liftM r) A read J where
  toKeeps := Keeps.ofExcept hA
  finds s a s' hrun _ _ _ := by
    rw [Attempt.Returns, Attempt.outcome_liftExcept, Prod.mk.injEq] at hrun
    obtain ⟨hr, rfl⟩ := hrun
    exact Explains.of_iff fun θ D b _ => hJ a hr θ D b

/-- The same steps for every element of a list. -/
theorem mapM {f : α → Attempt σ ε γ} {l : List α} {J : Valuation → α → Naming → δ → Prop}
    (h : ∀ a ∈ l, Finds w P (f a) B read' fun θ => J θ a)
    (hread : ∀ n c, B c n → ∀ θ θ', Valuation.AgreesBelow n θ θ' → read' c θ = read' c θ')
    (hlocal : ∀ n, P n → ∀ θ θ', Valuation.AgreesBelow n θ θ' → J θ = J θ') :
    Finds w P (l.mapM f) (Every B) (fun cs θ => cs.map (read' · θ))
      fun θ D ds => List.Forall₂ (fun a d => J θ a D d) l ds := by
  induction l with
  | nil =>
      exact Finds.pure (fun n _ => every_nil _ n) fun s _ _ θ D ds _ => by
        simp [List.forall₂_nil_left_iff]
  | cons a l ih =>
      have hrest := ih fun b hb => h b (List.mem_cons_of_mem _ hb)
      rw [List.mapM_cons]
      refine ((h a (List.mem_cons_self ..)).bind (K := fun θ d D ds => ∃ rest,
        List.Forall₂ (fun a d => J θ a D d) l rest ∧ ds = d :: rest) (fun c => ?_)
        fun n hn θ θ' hagree => ?_).congr fun s _ _ θ D ds _ => ?_
      · refine hrest.followedBy (K := fun θ rest D ds => ds = read' c θ :: rest)
          (fun n hn => hn.1) (fun cs => ?_) fun n hn θ θ' hagree => ?_
        · exact Finds.pure (fun n hn => every_cons.2 ⟨hn.1.2, hn.2⟩) fun s _ _ θ D ds _ => Iff.rfl
        · rw [hread n c hn.2 θ θ' hagree]
      · rw [hlocal n hn θ θ' hagree]
      · rw [List.forall₂_cons_left_iff]
        constructor
        · rintro ⟨d, hd, rest, hrest, heq⟩
          exact ⟨d, rest, hd, hrest, heq⟩
        · rintro ⟨d, rest, hd, hrest, heq⟩
          exact ⟨d, hd, rest, hrest, heq⟩

end Finds

/-- Handing out variables rules out nothing. -/
def freshView : View Supply Fault := { freshWatch with admits := fun _ θ _ => θ.IsMono }

/-- The variable that is handed out may be put any monotype for. -/
theorem fresh_finds : Finds freshView P (liftM Supply.fresh : Fresh Int) Before
    (fun id θ => θ id) fun _ _ t => t.isMono = true where
  toKeeps := (fresh_keeps (F := fun _ => True) fun _ _ => trivial).weaken (fun _ h => h)
    fun _ _ h => h.1
  finds s id s' hrun _ _ _ := by
    cases hrun
    refine ⟨fun θ D hθ => ⟨hθ, hθ _⟩, fun θ D t hθ ht => ?_⟩
    refine ⟨θ.set s.next t, θ.agreesBelow_set s.next t, hθ.set ht, ?_⟩
    exact if_pos rfl

namespace Inference

/-- The valuations that what has been found out leaves open, where names that nothing declares have
the types that a naming gives them. -/
structure State.Admits (s : State) (θ : Valuation) (D : Naming) : Prop where
  mono : θ.IsMono
  naming : ∀ name t, D name = some t → t.isMono = true
  subst : θ.Solves s.subst
  free : ∀ name id, s.free.lookup name = some id → D name = some (θ id)

def inferView : View State Fault := { inferWatch with admits := State.Admits }

theorem State.Sound.lookup_free {s : State} (hs : s.Sound) {name : String} {id : Int}
    (h : s.free.lookup name = some id) : id < s.supply.next := by
  obtain ⟨front, back, hfree, -⟩ := List.lookup_eq_some_iff.1 h
  exact hs.free (name, id) (by simp [hfree])

/-- New variables may be put anything for. -/
theorem State.Admits.of_agreesBelow {s : State} {θ θ' : Valuation} {D : Naming}
    (h : s.Admits θ D) (hs : s.Sound) (hagree : θ.AgreesBelow s.supply.next θ')
    (hmono : θ'.IsMono) : s.Admits θ' D where
  mono := hmono
  naming := h.naming
  subst := h.subst.of_agreesBelow hs.subst.2 hagree
  free name id hlookup := by
    rw [← hagree id (hs.lookup_free hlookup)]
    exact h.free name id hlookup

theorem fresh_finds {steps : Fresh α} (h : Finds freshView P steps A read J) :
    Finds inferView P (fresh steps) A read J where
  toKeeps := fresh_keeps h.toKeeps
  finds s a s' hrun hs hs' hpre := by
    have hstate : s' = { s with supply := s'.supply } := by
      rw [Attempt.Returns, outcome_fresh, Prod.mk.injEq] at hrun
      rw [← hrun.2]
    have hsteps : Attempt.Returns steps s.supply a s'.supply := by
      rw [Attempt.Returns, outcome_fresh, Prod.mk.injEq] at hrun
      rw [Attempt.Returns, ← hrun.1, ← hrun.2]
    have hexplains := h.finds s.supply a s'.supply hsteps trivial hs' hpre
    rw [hstate]
    refine ⟨fun θ D hθ => ⟨⟨hθ.mono, hθ.naming, hθ.subst, hθ.free⟩, (hexplains.sound θ D hθ.mono).2⟩,
      fun θ D b hθ hj => ?_⟩
    obtain ⟨θ', hagree, hmono, hvalue⟩ := hexplains.complete θ D b hθ.mono hj
    have hadmits := hθ.of_agreesBelow hs hagree hmono
    exact ⟨θ', hagree, ⟨hmono, hadmits.naming, hadmits.subst, hadmits.free⟩, hvalue⟩

theorem failAt_finds {e : Expr} {f : Fault} (h : ∀ n, P n → f.IsOrdinary) :
    Finds inferView P (failAt e f : Infer α) A read J where
  toKeeps := failAt_keeps h
  finds s a s' hrun := by cases hrun

theorem blaming_finds {e : Expr} {steps : Infer α} (h : Finds inferView P steps A read J) :
    Finds inferView P (blaming e steps) A read J :=
  h.tryCatch (fun _ => failAt_keeps fun _ hf => hf) fun _ _ _ _ hrun => by cases hrun

theorem freshVar_finds : Finds inferView P freshVar Ty.inScope (fun t θ => t.bind θ)
    fun _ _ t => t.isMono = true := by
  refine ((fresh_finds Formulary.fresh_finds).bind (K := fun _ u _ t => t = u) (fun id => ?_)
    fun _ _ _ _ _ => rfl).congr fun s _ _ θ D t _ => ?_
  · exact Finds.pure (fun n h => Ty.within_var h.2) fun s _ _ θ D t _ => Iff.rfl
  · simp

/-- A type as far as it is known is the same type. -/
theorem known_finds (t : Ty) : Finds inferView t.inScope (known t) Ty.inScope
    (fun u θ => u.bind θ) fun θ _ u => u = t.bind θ where
  toKeeps := known_keeps t
  finds s u s' hrun hs _ hpre := by
    cases hrun
    refine Explains.of_iff fun θ D u hθ => ?_
    rw [hθ.subst.bind_apply hpre.1]

/-- Making two types the same finds out just that. -/
theorem unify_finds (c : Context) (a b : Ty) :
    Finds inferView (a.inScope ⊓ b.inScope) (unify c a b) (fun _ => ⊤) (fun _ _ => ())
      fun θ _ _ => a.bind θ = b.bind θ where
  toKeeps := unify_keeps c a b
  finds s u s' hrun hs _ hpre := by
    obtain ⟨line, houtcome⟩ := outcome_unify c a b s
    have ha := Subst.within_apply hs.subst.2 hpre.1
    have hb := Subst.within_apply hs.subst.2 hpre.2
    rw [Attempt.Returns, houtcome] at hrun
    cases hunify : Ty.unify (s.subst.apply a) (s.subst.apply b) with
    | error e => simp [hunify] at hrun
    | ok found =>
        simp only [hunify, Prod.mk.injEq] at hrun
        obtain ⟨-, rfl⟩ := hrun
        have hiff : ∀ θ : Valuation, θ.Solves ((s.logged c line).refine found).subst ↔
            θ.Solves s.subst ∧ a.bind θ = b.bind θ := by
          intro θ
          show θ.Solves ((s.logged c line).subst.compose found) ↔ _
          rw [s.logged_subst]
          exact Valuation.solves_compose_iff hs.subst.1 hs.subst.2.monoRange hpre.1.1 hpre.2.1
            (Ty.unify_mostGeneral ha.1 hb.1 hunify)
        have hfree : ((s.logged c line).refine found).free = s.free := s.logged_free c line
        refine ⟨fun θ D hθ => ?_, fun θ D b hθ hsame => ⟨θ, .refl _ θ, ?_, rfl⟩⟩
        · obtain ⟨hsubst, hsame⟩ := (hiff θ).1 hθ.subst
          exact ⟨⟨hθ.mono, hθ.naming, hsubst, fun name id h => hθ.free name id (hfree ▸ h)⟩, hsame⟩
        · exact ⟨hθ.mono, hθ.naming, (hiff θ).2 ⟨hθ.subst, hsame⟩,
            fun name id h => hθ.free name id (hfree ▸ h)⟩

theorem freeName_finds (name : String) : Finds inferView P (freeName name) Ty.inScope
    (fun t θ => t.bind θ) fun _ D t => D name = some t where
  toKeeps := freeName_keeps name
  finds s t s' hrun hs _ _ := by
    unfold freeName at hrun
    obtain ⟨s₁, s₂, hget, hrun⟩ := Attempt.returns_bind_iff.1 hrun
    cases hget
    cases hlookup : s.free.lookup name with
    | some id =>
        simp only [hlookup] at hrun
        cases hrun
        refine Explains.of_iff fun θ D t hθ => ?_
        rw [hθ.free name id hlookup, Option.some.injEq, eq_comm, Ty.bind]
    | none =>
        simp only [hlookup] at hrun
        cases hrun
        have hother : ∀ other id, s.free.lookup other = some id →
            ((name, s.supply.next) :: s.free).lookup other = some id := by
          intro other id hid
          rw [List.lookup_cons, beq_false_of_ne, hid]
          rintro rfl
          rw [hlookup] at hid
          cases hid
        refine ⟨fun θ D hθ => ⟨⟨hθ.mono, hθ.naming, hθ.subst, fun other id hid =>
          hθ.free other id (hother other id hid)⟩, hθ.free name _ (by simp)⟩,
          fun θ D t hθ ht => ?_⟩
        have hagree := θ.agreesBelow_set s.supply.next t
        have hmono := hθ.mono.set (x := s.supply.next) (hθ.naming name t ht)
        have hadmits := hθ.of_agreesBelow hs hagree hmono
        have hvalue : (θ.set s.supply.next t) s.supply.next = t := if_pos rfl
        refine ⟨_, hagree, ⟨hmono, hθ.naming, hadmits.subst, fun other id hid => ?_⟩, hvalue⟩
        rw [List.lookup_cons] at hid
        cases hbeq : other == name with
        | true =>
            simp only [hbeq, Option.some.injEq] at hid
            rw [← hid, hvalue, eq_of_beq hbeq, ht]
        | false =>
            simp only [hbeq] at hid
            exact hadmits.free other id hid

/-- Steps that find out nothing. -/
def Quiet (m : Infer α) : Prop :=
  ∀ s, (m.outcome s).2.subst = s.subst ∧ (m.outcome s).2.free = s.free

namespace Quiet

theorem bind {m : Infer α} {f : α → Infer β} (hm : Quiet m) (hf : ∀ a, Quiet (f a)) :
    Quiet (m >>= f) := by
  intro s
  have hfirst := hm s
  rw [Attempt.outcome_bind]
  cases h : m.outcome s with
  | mk r s₁ =>
      rw [h] at hfirst
      cases r with
      | ok a => exact ⟨((hf a) s₁).1.trans hfirst.1, ((hf a) s₁).2.trans hfirst.2⟩
      | error e => exact hfirst

theorem forM {f : α → Infer PUnit} {l : List α} (h : ∀ a ∈ l, Quiet (f a)) : Quiet (l.forM f) := by
  induction l with
  | nil => exact fun _ => ⟨rfl, rfl⟩
  | cons a l ih =>
      show Quiet (f a >>= fun _ => l.forM f)
      exact (h a (List.mem_cons_self ..)).bind fun _ => ih fun b hb => h b (List.mem_cons_of_mem _ hb)

theorem ite {c : Prop} [Decidable c] {m m' : Infer α} (hthen : Quiet m) (helse : Quiet m') :
    Quiet (if c then m else m') := by
  split
  · exact hthen
  · exact helse

theorem finds {m : Infer α} (h : Quiet m) (hkeeps : Keeps inferWatch P m A) :
    Finds inferView P m A (fun _ _ => ()) fun _ _ _ => True where
  toKeeps := hkeeps
  finds s a s' hrun _ _ _ := by
    obtain ⟨hsubst, hfree⟩ := h s
    rw [hrun] at hsubst hfree
    have hiff : ∀ θ D, s'.Admits θ D ↔ s.Admits θ D := fun θ D =>
      ⟨fun hθ => ⟨hθ.mono, hθ.naming, hsubst ▸ hθ.subst, hfree ▸ hθ.free⟩,
        fun hθ => ⟨hθ.mono, hθ.naming, hsubst ▸ hθ.subst, hfree ▸ hθ.free⟩⟩
    exact ⟨fun θ D hθ => ⟨(hiff θ D).1 hθ, trivial⟩,
      fun θ D _ hθ _ => ⟨θ, .refl _ θ, (hiff θ D).2 hθ, rfl⟩⟩

end Quiet

theorem failAt_quiet (e : Expr) (f : Fault) : Quiet (failAt e f : Infer α) := fun _ => ⟨rfl, rfl⟩

theorem warn_quiet (f : Fault) : Quiet (warn f) := fun _ => ⟨rfl, rfl⟩

theorem fresh_quiet (steps : Fresh α) : Quiet (fresh steps) := fun _ => ⟨rfl, rfl⟩

theorem reviewCases_quiet (c : Context) (e : Expr) (scrutinee : Ty) (ps : List Pattern) :
    Quiet (reviewCases c e scrutinee ps) := by
  have hunreachable : Quiet
      ((Pattern.unreachable ps).forM fun i => warn (.unreachable (ps[i]?.getD .wildcard) i)) :=
    .forM fun _ _ => warn_quiet _
  refine (fresh_quiet _).bind fun missing => .ite hunreachable (.ite ?_ ?_)
  · exact (failAt_quiet _ _).bind fun _ => hunreachable
  · exact (warn_quiet _).bind fun _ => hunreachable

end Inference

end Formulary
