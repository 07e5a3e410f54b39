import Formulary.Proofs.Completeness

namespace Formulary

namespace Ty

/-- The number of arguments that a type takes, as far as it is known. -/
def arity (t : Ty) : Nat := t.uncurry.1.length

theorem arity_le_bind (t : Ty) (θ : Valuation) : t.arity ≤ (t.bind θ).arity := by
  unfold arity
  induction t using uncurry.induct with
  | case1 a b ih =>
      rw [bind, uncurry, uncurry, List.length_cons, List.length_cons]
      exact Nat.succ_le_succ ih
  | case2 t hfn =>
      have hnone : t.uncurry = ([], t) := by
        cases t with
        | fn a b => exact absurd rfl (hfn a b)
        | _ => rfl
      rw [hnone]
      exact Nat.zero_le _

theorem arity_bind {t : Ty} {θ : Valuation} (h : ∀ x ∈ t.freeOccurrences, (θ x).arity = 0) :
    (t.bind θ).arity = t.arity := by
  induction t using uncurry.induct with
  | case1 a b ih =>
      have hb := ih fun x hx => h x (List.mem_append_right _ hx)
      unfold arity at hb ⊢
      rw [bind, uncurry, uncurry, List.length_cons, List.length_cons, hb]
  | case2 t hfn =>
      cases t with
      | fn a b => exact absurd rfl (hfn a b)
      | var id => exact h id (List.mem_singleton_self id)
      | _ => rfl

theorem arity_curry (ts : List Ty) (t : Ty) : (curry ts t).arity = ts.length + t.arity := by
  induction ts with
  | nil => exact (Nat.zero_add _).symm
  | cons a ts ih =>
      have hcons : (curry (a :: ts) t).arity = (curry ts t).arity + 1 := rfl
      rw [hcons, ih, List.length_cons]
      omega

end Ty

/-- Types for some variables, none of which takes arguments. -/
structure Pinning where
  ids : List Int
  type : Valuation
  mono : type.IsMono
  arity : ∀ x, (type x).arity = 0

namespace Pinning

/-- A valuation puts the types for the variables. -/
def Meets (θ : Valuation) (pins : Pinning) : Prop := ∀ x ∈ pins.ids, θ x = pins.type x

/-- No variable has a type from the start. -/
def none : Pinning := ⟨[], fun _ => .scalar, fun _ => rfl, fun _ => rfl⟩

theorem Meets.of_agreesBelow {pins : Pinning} {θ θ' : Valuation} {n : Int} (h : Meets θ pins)
    (hpins : ∀ x ∈ pins.ids, x < n) (hagree : θ.AgreesBelow n θ') : Meets θ' pins := fun x hx => by
  rw [← hagree x (hpins x hx), h x hx]

end Pinning

namespace Inference

/-- Nothing is known of some variables, not even that two of them are the same. -/
structure State.LeavesOpen (s : State) (ids : List Int) : Prop where
  unknown : ∀ x ∈ ids, ∃ y, s.subst.image x = .var y
  apart : ∀ x ∈ ids, ∀ y ∈ ids, s.subst.image x = s.subst.image y → x = y

namespace State.LeavesOpen

variable {s s' : State} {ids : List Int}

theorem nil (s : State) : s.LeavesOpen [] :=
  ⟨fun _ hx => absurd hx List.not_mem_nil, fun _ hx => absurd hx List.not_mem_nil⟩

theorem subset {some : List Int} (h : s.LeavesOpen ids) (hsome : ∀ x ∈ some, x ∈ ids) :
    s.LeavesOpen some :=
  ⟨fun x hx => h.unknown x (hsome x hx), fun x hx y hy => h.apart x (hsome x hx) y (hsome y hy)⟩

theorem of_refined (h : s'.LeavesOpen ids) (hs : s.Sound) (hrefined : s.subst.RefinedTo s'.subst) :
    s.LeavesOpen ids := by
  have hsolves := hrefined.solves hs.subst.1 hs.subst.2.monoRange
  refine ⟨fun x hx => ?_, fun x hx y hy hsame => h.apart x hx y hy ?_⟩
  · obtain ⟨y, hy⟩ := h.unknown x hx
    exact (Ty.eq_var_of_bind_eq_var ((hsolves x).trans hy)).imp fun _ => And.left
  · rw [← hsolves x, ← hsolves y, hsame]

theorem exists_admits {pins : Pinning} (h : s.LeavesOpen pins.ids) (hs : s.Sound) :
    ∃ θ D, s.Admits θ D ∧ pins.Meets θ ∧ ∀ x, s.subst.image x = .var x → (θ x).arity = 0 := by
  obtain ⟨base, hbase⟩ : ∃ base : Valuation,
      base = Valuation.meeting (fun _ => .scalar) pins.ids s.subst.image pins.type := ⟨_, rfl⟩
  have hmono : base.IsMono := hbase ▸ Valuation.IsMono.meeting (fun _ => rfl) pins.mono
  have harity : ∀ x, (base x).arity = 0 := by
    intro x
    rw [hbase, Valuation.meeting]
    split
    · exact pins.arity _
    · rfl
  have hmeets : ∀ x ∈ pins.ids, (s.subst.image x).bind base = pins.type x := by
    intro x hx
    obtain ⟨y, hy⟩ := h.unknown x hx
    rw [hy, Ty.bind, hbase]
    exact Valuation.meeting_of_mem h.apart hx hy
  refine ⟨fun x => (s.subst.image x).bind base,
    fun name => (s.free.lookup name).map fun id => (s.subst.image id).bind base, ?_, hmeets, ?_⟩
  · have hvaluation : Valuation.IsMono fun x => (s.subst.image x).bind base := fun x =>
      Ty.isMono_bind (hs.subst.2.monoRange x) fun y _ => hmono y
    refine ⟨hvaluation, fun name t hname => ?_, fun x => ?_, fun name id hid => by simp [hid]⟩
    · obtain ⟨id, -, rfl⟩ := Option.map_eq_some_iff.1 hname
      exact hvaluation id
    · rw [← Ty.bind_bind _ _ (hs.subst.2.monoRange x), hs.subst.1.bind_image]
  · intro x hx
    show ((s.subst.image x).bind base).arity = 0
    rw [hx]
    exact harity x

end State.LeavesOpen

/-- What depends on the variables below a number only. -/
def readsBelow {ρ : Type} (R : Valuation → ρ) : Upward where
  holds n := ∀ θ θ', Valuation.AgreesBelow n θ θ' → R θ = R θ'
  mono hle h θ θ' hagree := h θ θ' fun x hx => hagree x (Int.lt_of_lt_of_le hx hle)

theorem readsBelow_prod {ρ β : Type} {R : Valuation → ρ} {v : Valuation → β} {n : Int}
    (hR : readsBelow R n) (hv : readsBelow v n) : readsBelow (fun θ => (R θ, v θ)) n :=
  fun θ θ' hagree => Prod.ext (hR θ θ' hagree) (hv θ θ' hagree)

variable {ρ α β γ δ : Type} {pins : Pinning} {Φ : ρ → Naming → Prop} {R R' : Valuation → ρ}
  {s s' t t' : State}

/-- Two states with the same readings, once some variables of the first stand for the types of a
pinning. In both a fact is known of all readings. -/
structure Linked (pins : Pinning) (Φ : ρ → Naming → Prop) (s s' : State) (R R' : Valuation → ρ) :
    Prop where
  sound : s.Sound
  sound' : s'.Sound
  pinned : ∀ x ∈ pins.ids, x < s.supply.next
  reads : readsBelow R s.supply.next
  reads' : readsBelow R' s'.supply.next
  holds : ∀ θ D, s.Admits θ D → Φ (R θ) D
  holds' : ∀ θ D, s'.Admits θ D → Φ (R' θ) D
  same : ∀ D r, (∃ θ, s.Admits θ D ∧ pins.Meets θ ∧ R θ = r) ↔ ∃ θ, s'.Admits θ D ∧ R' θ = r

section

variable {P P' Q Q' : Upward} {A : α → Upward} {B : γ → Upward} {m m' : Infer α}
  {read : α → Valuation → β} {read' : γ → Valuation → δ} {L : ρ → Naming → β → Prop}
  {K : ρ × β → Naming → δ → Prop} {a a' : α}

theorem Linked.map {Ψ : β → Naming → Prop} (h : Linked pins Φ s s' R R') (f : ρ → β)
    (hΨ : ∀ r D, Φ r D → Ψ (f r) D) :
    Linked pins Ψ s s' (fun θ => f (R θ)) fun θ => f (R' θ) where
  sound := h.sound
  sound' := h.sound'
  pinned := h.pinned
  reads θ θ' hagree := congrArg f (h.reads θ θ' hagree)
  reads' θ θ' hagree := congrArg f (h.reads' θ θ' hagree)
  holds θ D hθ := hΨ _ D (h.holds θ D hθ)
  holds' θ D hθ := hΨ _ D (h.holds' θ D hθ)
  same D r := by
    constructor
    · rintro ⟨θ, hθ, hpins, rfl⟩
      obtain ⟨θ', hθ', hsame⟩ := (h.same D (R θ)).1 ⟨θ, hθ, hpins, rfl⟩
      exact ⟨θ', hθ', congrArg f hsame⟩
    · rintro ⟨θ', hθ', rfl⟩
      obtain ⟨θ, hθ, hpins, hsame⟩ := (h.same D (R' θ')).2 ⟨θ', hθ', rfl⟩
      exact ⟨θ, hθ, hpins, congrArg f hsame⟩

/-- Steps that find out the same about the readings. -/
structure Matched (P P' : Upward) (R R' : Valuation → ρ) (m m' : Infer α) (A : α → Upward)
    (read : α → Valuation → β) (L : ρ → Naming → β → Prop) : Prop where
  finds : Finds inferView P m A read fun θ => L (R θ)
  finds' : Finds inferView P' m' A read fun θ => L (R' θ)
  reads : ∀ a n, A a n → readsBelow (read a) n

theorem Matched.of_pre (h : Matched P P' R R' m m' A read L) (hP : ∀ n, Q n → P n)
    (hP' : ∀ n, Q' n → P' n) : Matched Q Q' R R' m m' A read L :=
  ⟨h.finds.of_pre hP, h.finds'.of_pre hP', h.reads⟩

/-- Steps that find out the same about the readings leave the same readings, also of what they
return. -/
theorem Linked.step (h : Linked pins Φ s s' R R') (hm : Matched P P' R R' m m' A read L)
    (hrun : m.Returns s a t) (hrun' : m'.Returns s' a' t') (hu : t.supply.Unwrapped)
    (hu' : t'.supply.Unwrapped) (hpre : P s.supply.next) (hpre' : P' s'.supply.next) :
    Linked pins (fun r D => Φ r.1 D ∧ L r.1 D r.2) t t' (fun θ => (R θ, read a θ))
      fun θ => (R' θ, read a' θ) := by
  obtain ⟨hsound, ha, hle⟩ := hm.finds.toKeeps.of_returns hrun hu h.sound hpre
  obtain ⟨hsound', ha', hle'⟩ := hm.finds'.toKeeps.of_returns hrun' hu' h.sound' hpre'
  have hexplains := hm.finds.finds s a t hrun h.sound hu hpre
  have hexplains' := hm.finds'.finds s' a' t' hrun' h.sound' hu' hpre'
  refine ⟨hsound, hsound', fun x hx => Int.lt_of_lt_of_le (h.pinned x hx) hle,
    readsBelow_prod ((readsBelow R).mono hle h.reads) (hm.reads a _ ha),
    readsBelow_prod ((readsBelow R').mono hle' h.reads') (hm.reads a' _ ha'),
    fun θ D hθ => ?_, fun θ D hθ => ?_, fun D r => ?_⟩
  · obtain ⟨hbefore, hj⟩ := hexplains.sound θ D hθ
    exact ⟨h.holds θ D hbefore, hj⟩
  · obtain ⟨hbefore, hj⟩ := hexplains'.sound θ D hθ
    exact ⟨h.holds' θ D hbefore, hj⟩
  · constructor
    · rintro ⟨θ, hθ, hpins, rfl⟩
      obtain ⟨hbefore, hj⟩ := hexplains.sound θ D hθ
      obtain ⟨θ', hθ', hsame⟩ := (h.same D (R θ)).1 ⟨θ, hbefore, hpins, rfl⟩
      rw [← hsame] at hj
      obtain ⟨θ'', hagree, hafter, hvalue⟩ := hexplains'.complete θ' D _ hθ' hj
      exact ⟨θ'', hafter, Prod.ext ((h.reads' θ' θ'' hagree).symm.trans hsame) hvalue⟩
    · rintro ⟨θ', hθ', rfl⟩
      obtain ⟨hbefore, hj⟩ := hexplains'.sound θ' D hθ'
      obtain ⟨θ, hθ, hpins, hsame⟩ := (h.same D (R' θ')).2 ⟨θ', hbefore, rfl⟩
      rw [← hsame] at hj
      obtain ⟨θ'', hagree, hafter, hvalue⟩ := hexplains.complete θ D _ hθ hj
      exact ⟨θ'', hafter, hpins.of_agreesBelow h.pinned hagree,
        Prod.ext ((h.reads θ θ'' hagree).symm.trans hsame) hvalue⟩

theorem Linked.arity_eq (h : Linked pins Φ s s' R R') (hopen : s.LeavesOpen pins.ids) {w w' : Ty}
    {W : ρ → Ty} (hw : w.inScope s.supply.next) (hw' : w'.inScope s'.supply.next)
    (hread : ∀ θ, w.bind θ = W (R θ)) (hread' : ∀ θ, w'.bind θ = W (R' θ)) :
    (s.subst.apply w).arity = (s'.subst.apply w').arity := by
  -- some reading has just the arguments that are known, and none has fewer
  have hknown : ∀ {s : State} {w : Ty} {θ : Valuation}, s.Sound → w.inScope s.supply.next →
      θ.Solves s.subst → (s.subst.apply w).arity ≤ (w.bind θ).arity ∧
        ((∀ x, s.subst.image x = .var x → (θ x).arity = 0) →
          (w.bind θ).arity = (s.subst.apply w).arity) := by
    intro s w θ hs hw hθ
    rw [← hθ.bind_apply hw.1]
    refine ⟨Ty.arity_le_bind _ _, fun hnew => Ty.arity_bind fun x hx => hnew x ?_⟩
    exact (hs.subst.1.apply_within hs.subst.2.monoRange hw.1).2 x hx
  refine Nat.le_antisymm ?_ ?_
  · have hnone : s'.LeavesOpen Pinning.none.ids := .nil s'
    obtain ⟨θ', D, hθ', -, hnew⟩ := hnone.exists_admits h.sound'
    obtain ⟨θ, hθ, -, hsame⟩ := (h.same D (R' θ')).2 ⟨θ', hθ', rfl⟩
    rw [← (hknown h.sound' hw' hθ'.subst).2 hnew, hread', ← hsame, ← hread]
    exact (hknown h.sound hw hθ.subst).1
  · obtain ⟨θ, D, hθ, hpins, hnew⟩ := hopen.exists_admits h.sound
    obtain ⟨θ', hθ', hsame⟩ := (h.same D (R θ)).1 ⟨θ, hθ, hpins, rfl⟩
    rw [← (hknown h.sound hw hθ.subst).2 hnew, hread, ← hsame, ← hread']
    exact (hknown h.sound' hw' hθ'.subst).1

/-- Steps that take back nothing of what has been found out, and no variable. -/
structure Advances (m : Infer α) : Prop where
  refines : Refines m
  grows : ∀ s, s.supply ≤ (m.outcome s).2.supply

theorem Advances.bind {m : Infer α} {f : α → Infer γ} (hm : Advances m) (hf : ∀ a, Advances (f a)) :
    Advances (m >>= f) where
  refines := hm.refines.bind fun a => (hf a).refines
  grows s := (hm.grows s).trans (Succeeds.supply_le_bind (w := inferView) (fun a => (hf a).grows) s)

theorem Advances.pure (a : α) : Advances (pure a) :=
  ⟨Moves.pure (R := State.Refined) a, fun _ => le_rfl⟩

/-- Where the first steps succeed and leave the variables of a pinning open, the second do from a
state with the same readings. -/
def Follows (pins : Pinning) (Φ : ρ → Naming → Prop) (P P' : Upward) (R R' : Valuation → ρ)
    (m m' : Infer α) : Prop :=
  ∀ s s' a t, Linked pins Φ s s' R R' → m.Returns s a t → t.supply.Unwrapped →
    (m'.outcome s').2.supply.Unwrapped → P s.supply.next → P' s'.supply.next →
      t.LeavesOpen pins.ids → ∃ a' t', m'.Returns s' a' t'

namespace Follows

theorem of_pre (h : Follows pins Φ P P' R R' m m') (hP : ∀ n, Q n → P n) (hP' : ∀ n, Q' n → P' n) :
    Follows pins Φ Q Q' R R' m m' :=
  fun s s' a t hlinked hrun hu hu' hpre hpre' =>
    h s s' a t hlinked hrun hu hu' (hP _ hpre) (hP' _ hpre')

theorem of_known {φ φ' : Prop} (hφ : ∀ n, P n → φ) (hφ' : ∀ n, P' n → φ')
    (h : φ → φ' → Follows pins Φ P P' R R' m m') : Follows pins Φ P P' R R' m m' :=
  fun s s' a t hlinked hrun hu hu' hpre hpre' =>
    h (hφ _ hpre) (hφ' _ hpre') s s' a t hlinked hrun hu hu' hpre hpre'

theorem of_returns (h : ∀ s', ∃ a' t', m'.Returns s' a' t') : Follows pins Φ P P' R R' m m' :=
  fun _ s' _ _ _ _ _ _ _ _ _ => h s'

/-- Steps that succeed where what they stand for holds of a reading. -/
theorem of_succeeds (hm : Finds inferView P m A read fun θ => L (R θ))
    (hm' : Succeeds inferView P' m' fun θ => L (R' θ)) : Follows pins Φ P P' R R' m m' := by
  intro s s' a t hlinked hrun hu hu' hpre hpre' hopen
  obtain ⟨hsound, -, -⟩ := hm.toKeeps.of_returns hrun hu hlinked.sound hpre
  obtain ⟨θ, D, hθ, hpins, -⟩ := hopen.exists_admits hsound
  obtain ⟨hbefore, hj⟩ := (hm.finds s a t hrun hlinked.sound hu hpre).sound θ D hθ
  obtain ⟨θ', hθ', hsame⟩ := (hlinked.same D (R θ)).1 ⟨θ, hbefore, hpins, rfl⟩
  rw [← hsame] at hj
  exact hm' s' hlinked.sound' hu' hpre' θ' D _ hθ' hj

theorem bind {f f' : α → Infer γ} (hm : Follows pins Φ P P' R R' m m')
    (hmatched : Matched P P' R R' m m' A read L) (hadvances : ∀ a, Advances (f a))
    (hadvances' : ∀ a, Advances (f' a))
    (hf : ∀ a a', Follows pins (fun r D => Φ r.1 D ∧ L r.1 D r.2) (P ⊓ A a) (P' ⊓ A a')
      (fun θ => (R θ, read a θ)) (fun θ => (R' θ, read a' θ)) (f a) (f' a')) :
    Follows pins Φ P P' R R' (m >>= f) (m' >>= f') := by
  intro s s' d t hlinked hrun hu hu' hpre hpre' hopen
  obtain ⟨a, s₁, hfirst, hsecond⟩ := Attempt.returns_bind_iff.1 hrun
  have hle := (hadvances a).grows s₁
  have hrefined := (hadvances a).refines s₁
  rw [hsecond] at hle hrefined
  have hu₁ := hu.of_le hle
  obtain ⟨hs₁, ha, hnext⟩ := hmatched.finds.toKeeps.of_returns hfirst hu₁ hlinked.sound hpre
  have hle' := Succeeds.supply_le_bind (w := inferView) (m := m') (fun a => (hadvances' a).grows) s'
  obtain ⟨a', s₁', hfirst'⟩ := hm s s' a s₁ hlinked hfirst hu₁ (hu'.of_le hle') hpre hpre'
    (hopen.of_refined hs₁ hrefined)
  rw [hfirst'] at hle'
  have hu₁' : s₁'.supply.Unwrapped := hu'.of_le hle'
  obtain ⟨-, ha', hnext'⟩ := hmatched.finds'.toKeeps.of_returns hfirst' hu₁' hlinked.sound' hpre'
  have hsecond' : (m' >>= f').outcome s' = (f' a').outcome s₁' := by
    rw [Attempt.outcome_bind, hfirst']
  rw [hsecond'] at hu'
  obtain ⟨d', t', hrun'⟩ := hf a a' s₁ s₁' d t
    (hlinked.step hmatched hfirst hfirst' hu₁ hu₁' hpre hpre') hsecond hu hu'
    ⟨P.mono hnext hpre, ha⟩ ⟨P'.mono hnext' hpre', ha'⟩ hopen
  exact ⟨d', t', hsecond'.trans hrun'⟩

/-- Steps behind which anything goes that always succeeds. -/
theorem bind_returns {f f' : α → Infer γ} (hm : Follows pins Φ P P' R R' m m')
    (hkeeps : Keeps inferWatch P m A) (hadvances : ∀ a, Advances (f a))
    (hadvances' : ∀ a, Advances (f' a))
    (hf : ∀ a s, ∃ d s', (f' a).Returns s d s') : Follows pins Φ P P' R R' (m >>= f) (m' >>= f') := by
  intro s s' d t hlinked hrun hu hu' hpre hpre' hopen
  obtain ⟨a, s₁, hfirst, hsecond⟩ := Attempt.returns_bind_iff.1 hrun
  have hle := (hadvances a).grows s₁
  have hrefined := (hadvances a).refines s₁
  rw [hsecond] at hle hrefined
  obtain ⟨hs₁, -, -⟩ := hkeeps.of_returns hfirst (hu.of_le hle) hlinked.sound hpre
  obtain ⟨a', s₁', hfirst'⟩ := hm s s' a s₁ hlinked hfirst (hu.of_le hle)
    (hu'.of_le (Succeeds.supply_le_bind (w := inferView) (m := m') (fun a => (hadvances' a).grows) s'))
    hpre hpre'
    (hopen.of_refined hs₁ hrefined)
  obtain ⟨d', t', hsecond'⟩ := hf a' s₁'
  exact ⟨d', t', Attempt.returns_bind_iff.2 ⟨a', s₁', hfirst', hsecond'⟩⟩

end Follows

end

end Inference

end Formulary
