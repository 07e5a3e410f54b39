import Formulary.Error
import Formulary.Proofs.Supply

/-!
Steps that may fail and that work on a state. `outcome` says what such steps come to from a state,
one equation for each way of putting steps together. `Keeps` is what is shown of the steps of
inference: they hand out variables in order, keep what holds of the state, return nothing but what
is in scope, and fail in no other way than they may.
-/

namespace Formulary

section Results

variable {ε α β : Type} {p p' : α → Prop} {q : ε → Prop} {r : β → Prop}

/-- What steps that may fail end in: a value with a property, or an error with a property. -/
def Ends (p : α → Prop) (q : ε → Prop) : Except ε α → Prop
  | .ok a => p a
  | .error e => q e

theorem Ends.imp {x : Except ε α} (h : Ends p q x) (hp : ∀ a, p a → p' a) : Ends p' q x := by
  cases x with
  | ok a => exact hp a h
  | error e => exact h

theorem Ends.bind {x : Except ε α} {f : α → Except ε β} (hx : Ends p q x)
    (hf : ∀ a, p a → Ends r q (f a)) : Ends r q (x >>= f) := by
  cases x with
  | ok a => exact hf a hx
  | error e => exact hx

theorem Ends.bind_congr {x : Except ε α} {f g : α → Except ε β} (hx : Ends p q x)
    (h : ∀ a, p a → f a = g a) : x >>= f = x >>= g := by
  cases x with
  | ok a => exact h a hx
  | error e => rfl

theorem Ends.ite {c : Prop} [Decidable c] {x y : Except ε α} (hthen : c → Ends p q x)
    (helse : ¬c → Ends p q y) : Ends p q (if c then x else y) := by
  split
  · rename_i h
    exact hthen h
  · rename_i h
    exact helse h

theorem ends_throw_bind {e : ε} {f : β → Except ε α} (h : q e) : Ends p q (throw e >>= f) := h

theorem Ends.forM {f : α → Except ε PUnit} {l : List α}
    (h : ∀ a ∈ l, Ends (fun _ => True) q (f a)) : Ends (fun _ => True) q (l.forM f) := by
  induction l with
  | nil => trivial
  | cons a l ih =>
      exact (h a (List.mem_cons_self ..)).bind fun _ _ =>
        ih fun b hb => h b (List.mem_cons_of_mem _ hb)

end Results

theorem exists_of_forall₂ {α β : Type} {R : α → β → Prop} {l : List α} {bs : List β}
    (h : List.Forall₂ R l bs) {b : β} (hb : b ∈ bs) : ∃ a ∈ l, R a b := by
  induction h with
  | nil => exact absurd hb List.not_mem_nil
  | @cons a b' l bs hR _ ih =>
      rcases List.mem_cons.1 hb with rfl | hb
      · exact ⟨a, List.mem_cons_self .., hR⟩
      · obtain ⟨a', ha', hR'⟩ := ih hb
        exact ⟨a', List.mem_cons_of_mem _ ha', hR'⟩

theorem exists_of_forall₂_left {α β : Type} {R : α → β → Prop} {l : List α} {bs : List β}
    (h : List.Forall₂ R l bs) {a : α} (ha : a ∈ l) : ∃ b, R a b := by
  obtain ⟨b, -, hb⟩ := exists_of_forall₂ h.flip ha
  exact ⟨b, hb⟩

namespace Attempt

variable {σ τ ε ε' α β : Type}

/-- What steps come to from a state: what they return or how they fail, and the state behind
them. -/
def outcome (m : Attempt σ ε α) (s : σ) : Except ε α × σ := m.run.run s

/-- Steps from a state return a value and leave a state behind. -/
def Returns (m : Attempt σ ε α) (s : σ) (a : α) (s' : σ) : Prop := m.outcome s = (.ok a, s')

@[simp] theorem outcome_pure (a : α) (s : σ) :
    (pure a : Attempt σ ε α).outcome s = (.ok a, s) := rfl

@[simp] theorem outcome_throw (e : ε) (s : σ) :
    (throw e : Attempt σ ε α).outcome s = (.error e, s) := rfl

@[simp] theorem outcome_get (s : σ) : (get : Attempt σ ε σ).outcome s = (.ok s, s) := rfl

@[simp] theorem outcome_set (s s' : σ) :
    (set s' : Attempt σ ε PUnit).outcome s = (.ok ⟨⟩, s') := rfl

@[simp] theorem outcome_modify (f : σ → σ) (s : σ) :
    (modify f : Attempt σ ε PUnit).outcome s = (.ok ⟨⟩, f s) := rfl

@[simp] theorem outcome_liftState (x : StateM σ α) (s : σ) :
    (liftM x : Attempt σ ε α).outcome s = (.ok (x.run s).1, (x.run s).2) := rfl

@[simp] theorem outcome_liftExcept (r : Except ε α) (s : σ) :
    (liftM r : Attempt σ ε α).outcome s = (r, s) := rfl

theorem outcome_bind (m : Attempt σ ε α) (f : α → Attempt σ ε β) (s : σ) :
    (m >>= f).outcome s =
      match m.outcome s with
      | (.ok a, s') => (f a).outcome s'
      | (.error e, s') => (.error e, s') := by
  simp only [outcome, ExceptT.run_bind, StateT.run_bind]
  cases h : m.run.run s with
  | mk r s' =>
      cases r with
      | ok a => rfl
      | error e => rfl

theorem outcome_tryCatch (m : Attempt σ ε α) (f : ε → Attempt σ ε α) (s : σ) :
    (tryCatch m f).outcome s =
      match m.outcome s with
      | (.ok a, s') => (.ok a, s')
      | (.error e, s') => (f e).outcome s' := by
  show StateT.run (m.run >>= fun r => match r with
    | .ok a => pure (.ok a)
    | .error e => (f e).run) s = _
  rw [StateT.run_bind]
  simp only [outcome]
  cases h : m.run.run s with
  | mk r s' =>
      cases r with
      | ok a => rfl
      | error e => rfl

theorem outcome_zoom (get : σ → τ) (set : σ → τ → σ) (m : Attempt τ ε α) (s : σ) :
    (zoom get set m).outcome s = ((m.outcome (get s)).1, set s (m.outcome (get s)).2) := rfl

theorem outcome_adapt (f : ε → ε') (m : Attempt σ ε α) (s : σ) :
    outcome (ExceptT.adapt f m) s = ((m.outcome s).1.mapError f, (m.outcome s).2) := rfl

theorem returns_bind_iff {m : Attempt σ ε α} {f : α → Attempt σ ε β} {s s' : σ} {b : β} :
    Returns (m >>= f) s b s' ↔ ∃ a s₁, Returns m s a s₁ ∧ Returns (f a) s₁ b s' := by
  unfold Returns
  rw [outcome_bind]
  cases h : m.outcome s with
  | mk r s₁ =>
      cases r with
      | ok a =>
          constructor
          · exact fun hf => ⟨a, s₁, rfl, hf⟩
          · rintro ⟨a', s₁', heq, hf⟩
            cases heq
            exact hf
      | error e => simp

theorem returns_mapM {f : α → Attempt σ ε β} {l : List α} {s s' : σ} {bs : List β}
    (h : Returns (l.mapM f) s bs s') :
    List.Forall₂ (fun a b => ∃ s₁ s₂, Returns (f a) s₁ b s₂) l bs := by
  induction l generalizing s bs with
  | nil =>
      cases h
      exact .nil
  | cons a l ih =>
      rw [List.mapM_cons] at h
      obtain ⟨b, s₁, hfirst, h⟩ := returns_bind_iff.1 h
      obtain ⟨rest, s₂, hrest, h⟩ := returns_bind_iff.1 h
      cases h
      exact .cons ⟨s, s₁, hfirst⟩ (ih hrest)

/-- Steps that look at the state and leave it as it is. -/
def Peeks (p : α → Prop) (q : ε → Prop) (m : Attempt σ ε α) : Prop :=
  ∀ s, (m.outcome s).2 = s ∧ Ends p q (m.outcome s).1

theorem Peeks.bind {p : α → Prop} {q : ε → Prop} {r : β → Prop} {m : Attempt σ ε α}
    {f : α → Attempt σ ε β} (hm : Peeks p q m) (hf : ∀ a, p a → Peeks r q (f a)) :
    Peeks r q (m >>= f) := by
  intro s
  obtain ⟨hstate, hends⟩ := hm s
  rw [outcome_bind]
  cases h : m.outcome s with
  | mk x s₁ =>
      rw [h] at hstate hends
      cases x with
      | ok a => exact hstate ▸ hf a hends s₁
      | error e => exact ⟨hstate, hends⟩

end Attempt

/-- What holds of a number and then of every larger one. -/
structure Upward where
  holds : Int → Prop
  mono : ∀ {m n : Int}, m ≤ n → holds m → holds n

namespace Upward

instance : CoeFun Upward fun _ => Int → Prop := ⟨holds⟩

instance : Min Upward :=
  ⟨fun P Q => ⟨fun n => P n ∧ Q n, fun hle h => ⟨P.mono hle h.1, Q.mono hle h.2⟩⟩⟩

instance : Top Upward := ⟨⟨fun _ => True, fun _ h => h⟩⟩

instance : Bot Upward := ⟨⟨fun _ => False, fun _ h => h⟩⟩

end Upward

/-- A fact that is not about variables. -/
def Known (φ : Prop) : Upward := ⟨fun _ => φ, fun _ h => h⟩

/-- Something holds of everything in a list. -/
def Every {α : Type} (A : α → Upward) (l : List α) : Upward where
  holds n := ∀ a ∈ l, A a n
  mono hle h a ha := (A a).mono hle (h a ha)

theorem every_nil {α : Type} (A : α → Upward) (n : Int) : Every A [] n :=
  fun _ h => absurd h List.not_mem_nil

theorem every_cons {α : Type} {A : α → Upward} {a : α} {l : List α} {n : Int} :
    Every A (a :: l) n ↔ A a n ∧ Every A l n :=
  List.forall_mem_cons

/-- What is watched while steps run. -/
structure Watch (σ ε : Type) where
  /-- The supply of variables in a state. -/
  supply : σ → Supply
  /-- What holds of the states. -/
  sound : σ → Prop
  /-- The faults that may come. -/
  allowed : ε → Prop

variable {σ τ ε ε' α β : Type} {w : Watch σ ε} {P P' : Upward} {A A' : α → Upward}
  {B : β → Upward}

/-- A result of which something holds below a number, or a fault that may come. -/
abbrev Watch.Allows (w : Watch σ ε) (A : α → Upward) (n : Int) : Except ε α → Prop :=
  Ends (fun a => A a n) w.allowed

/-- Started where `P` holds of the variables handed out, steps keep what is watched and return a
value of which `A` holds. That the supply only moves forward holds from everywhere, so that a supply
that has not run over at the end has never done so. -/
structure Keeps (w : Watch σ ε) (P : Upward) (m : Attempt σ ε α) (A : α → Upward) :
    Prop where
  grows : ∀ s, w.supply s ≤ w.supply (m.outcome s).2
  keeps : ∀ s, (w.supply (m.outcome s).2).Unwrapped → w.sound s → P (w.supply s).next →
    w.sound (m.outcome s).2 ∧
      w.Allows A (w.supply (m.outcome s).2).next (m.outcome s).1

namespace Keeps

theorem weaken {m : Attempt σ ε α} (h : Keeps w P m A) (hP : ∀ n, P' n → P n)
    (hA : ∀ a n, A a n → A' a n) : Keeps w P' m A' where
  grows := h.grows
  keeps s hs hsound hpre := by
    obtain ⟨hsound', hout⟩ := h.keeps s hs hsound (hP _ hpre)
    exact ⟨hsound', hout.imp fun a => hA a _⟩

theorem of_pre {m : Attempt σ ε α} (h : Keeps w P m A) (hP : ∀ n, P' n → P n) : Keeps w P' m A :=
  h.weaken hP fun _ _ => id

/-- What is known of everything that is returned. -/
theorem and_known {m : Attempt σ ε α} {φ : α → Prop} (h : Keeps w P m A)
    (hφ : ∀ s a s', m.Returns s a s' → w.sound s → (w.supply s').Unwrapped → P (w.supply s).next →
      φ a) : Keeps w P m fun a => A a ⊓ Known (φ a) where
  grows := h.grows
  keeps s hs hsound hpre := by
    obtain ⟨hsound', hout⟩ := h.keeps s hs hsound hpre
    refine ⟨hsound', ?_⟩
    cases hr : m.outcome s with
    | mk r s' =>
        rw [hr] at hs hout
        cases r with
        | ok a => exact ⟨hout, hφ s a s' hr hsound hs hpre⟩
        | error e => exact hout

theorem pure {a : α} (h : ∀ n, P n → A a n) : Keeps w P (pure a) A where
  grows _ := le_rfl
  keeps _ _ hsound hpre := ⟨hsound, h _ hpre⟩

theorem throw {e : ε} (h : ∀ n, P n → w.allowed e) : Keeps w P (throw e) A where
  grows _ := le_rfl
  keeps _ _ hsound hpre := ⟨hsound, h _ hpre⟩

theorem get {A : σ → Upward}
    (h : ∀ s, w.sound s → P (w.supply s).next → A s (w.supply s).next) : Keeps w P get A where
  grows _ := le_rfl
  keeps s _ hsound hpre := ⟨hsound, h s hsound hpre⟩

theorem bind {m : Attempt σ ε α} {f : α → Attempt σ ε β} (hm : Keeps w P m A)
    (hf : ∀ a, Keeps w (P ⊓ A a) (f a) B) : Keeps w P (m >>= f) B where
  grows s := by
    have hfirst := hm.grows s
    rw [Attempt.outcome_bind]
    cases h : m.outcome s with
    | mk r s₁ =>
        rw [h] at hfirst
        cases r with
        | ok a => exact hfirst.trans ((hf a).grows s₁)
        | error e => exact hfirst
  keeps s hs hsound hpre := by
    have hfirst := hm.grows s
    have hkeep := hm.keeps s
    rw [Attempt.outcome_bind] at hs ⊢
    cases h : m.outcome s with
    | mk r s₁ =>
        rw [h] at hfirst hkeep
        cases r with
        | ok a =>
            simp only [h] at hs ⊢
            have hs₁ := hs.of_le ((hf a).grows s₁)
            obtain ⟨hsound₁, hout⟩ := hkeep hs₁ hsound hpre
            exact (hf a).keeps s₁ hs hsound₁
              ⟨P.mono (hs₁.next_le_next hfirst) hpre, hout⟩
        | error e =>
            simp only [h] at hs ⊢
            exact hkeep hs hsound hpre

theorem followedBy {m : Attempt σ ε α} {f : α → Attempt σ ε β} (hm : Keeps w P' m A)
    (hP : ∀ n, P n → P' n) (hf : ∀ a, Keeps w (P ⊓ A a) (f a) B) : Keeps w P (m >>= f) B :=
  (hm.of_pre hP).bind hf

theorem tryCatch {m : Attempt σ ε α} {f : ε → Attempt σ ε α} (hm : Keeps w P m A)
    (hf : ∀ e, Keeps w (Known (w.allowed e)) (f e) A) : Keeps w P (tryCatch m f) A where
  grows s := by
    have hfirst := hm.grows s
    rw [Attempt.outcome_tryCatch]
    cases h : m.outcome s with
    | mk r s₁ =>
        rw [h] at hfirst
        cases r with
        | ok a => exact hfirst
        | error e => exact hfirst.trans ((hf e).grows s₁)
  keeps s hs hsound hpre := by
    have hkeep := hm.keeps s
    rw [Attempt.outcome_tryCatch] at hs ⊢
    cases h : m.outcome s with
    | mk r s₁ =>
        rw [h] at hkeep
        cases r with
        | ok a =>
            simp only [h] at hs ⊢
            exact hkeep hs hsound hpre
        | error e =>
            simp only [h] at hs ⊢
            obtain ⟨hsound₁, hallowed⟩ := hkeep (hs.of_le ((hf e).grows s₁)) hsound hpre
            exact (hf e).keeps s₁ hs hsound₁ hallowed

theorem iteOf {c : Prop} [Decidable c] {m m' : Attempt σ ε α} (hthen : c → Keeps w P m A)
    (helse : ¬c → Keeps w P m' A) : Keeps w P (if c then m else m') A := by
  split
  · rename_i h
    exact hthen h
  · rename_i h
    exact helse h

theorem ite {c : Prop} [Decidable c] {m m' : Attempt σ ε α} (hthen : Keeps w P m A)
    (helse : Keeps w P m' A) : Keeps w P (if c then m else m') A :=
  iteOf (fun _ => hthen) fun _ => helse

theorem modify {f : σ → σ} (hsupply : ∀ s, w.supply s ≤ w.supply (f s))
    (hsound : ∀ s, w.sound s → P (w.supply s).next → (w.supply (f s)).Unwrapped →
      w.sound (f s)) : Keeps w P (modify f) fun _ => ⊤ where
  grows s := hsupply s
  keeps s hs hs₀ hpre := ⟨hsound s hs₀ hpre hs, trivial⟩

theorem ofExcept {r : Except ε α} (h : ∀ n, P n → w.Allows A n r) : Keeps w P (liftM r) A where
  grows _ := le_rfl
  keeps _ _ hsound hpre := ⟨hsound, h _ hpre⟩

theorem forM {f : α → Attempt σ ε PUnit} {l : List α} (h : ∀ a ∈ l, Keeps w P (f a) fun _ => ⊤) :
    Keeps w P (l.forM f) fun _ => ⊤ := by
  induction l with
  | nil => exact Keeps.pure fun _ _ => trivial
  | cons a l ih =>
      show Keeps w P (f a >>= fun _ => l.forM f) _
      exact (h a (List.mem_cons_self ..)).bind fun _ =>
        (ih fun b hb => h b (List.mem_cons_of_mem _ hb)).of_pre fun _ h => h.1

theorem mapM {f : α → Attempt σ ε β} {l : List α} (h : ∀ a ∈ l, Keeps w P (f a) B) :
    Keeps w P (l.mapM f) (Every B) := by
  induction l with
  | nil => exact Keeps.pure fun _ _ => every_nil _ _
  | cons a l ih =>
      rw [List.mapM_cons]
      have hrest := ih fun a' ha' => h a' (List.mem_cons_of_mem _ ha')
      refine (h a (List.mem_cons_self ..)).bind fun b => ?_
      refine hrest.followedBy (fun _ h => h.1) fun bs => ?_
      exact Keeps.pure fun _ h => every_cons.2 ⟨h.1.2, h.2⟩

theorem adapt {m : Attempt σ ε α} {f : ε → ε'} {w' : Watch σ ε'} (h : Keeps w P m A)
    (hsupply : w'.supply = w.supply) (hsound : w'.sound = w.sound)
    (hallowed : ∀ e, w.allowed e → w'.allowed (f e)) : Keeps w' P (ExceptT.adapt f m) A where
  grows s := by
    rw [Attempt.outcome_adapt, hsupply]
    exact h.grows s
  keeps s hs hsound' hpre := by
    rw [Attempt.outcome_adapt] at hs ⊢
    rw [hsupply] at hs hpre ⊢
    rw [hsound] at hsound' ⊢
    obtain ⟨hkept, hout⟩ := h.keeps s hs hsound' hpre
    refine ⟨hkept, ?_⟩
    cases hr : (m.outcome s).1 with
    | ok a => simpa [hr, Ends, Except.mapError] using hout
    | error e => exact hallowed e (by simpa [hr, Ends] using hout)

/-- Steps on a part of the state, the part that holds the supply. -/
theorem zoom {m : Attempt τ ε α} {wt : Watch τ ε} {get : σ → τ} {set : σ → τ → σ}
    (h : Keeps wt P m A) (hget : ∀ s, w.supply s = wt.supply (get s))
    (hset : ∀ s t, w.supply (set s t) = wt.supply t) (hsound : ∀ s, w.sound s → wt.sound (get s))
    (hback : ∀ s t, w.sound s → wt.sound t → w.supply s ≤ wt.supply t →
      (wt.supply t).Unwrapped → w.sound (set s t))
    (hallowed : ∀ e, wt.allowed e → w.allowed e) : Keeps w P (Attempt.zoom get set m) A where
  grows s := by
    rw [Attempt.outcome_zoom, hset, hget]
    exact h.grows (get s)
  keeps s hs hs₀ hpre := by
    rw [Attempt.outcome_zoom] at hs ⊢
    simp only [hset] at hs ⊢
    rw [hget] at hpre
    obtain ⟨hpart, hout⟩ := h.keeps (get s) hs (hsound s hs₀) hpre
    refine ⟨hback s _ hs₀ hpart (hget s ▸ h.grows (get s)) hs, ?_⟩
    cases hr : (m.outcome (get s)).1 with
    | ok a => simpa [hr, Ends] using hout
    | error e => exact hallowed e (by simpa [hr, Ends] using hout)

end Keeps

end Formulary
