import Formulary.Proofs.Denotation
import Formulary.Proofs.PrincipalPatterns
import Formulary.Proofs.Readings

namespace Formulary

/-- Whether a name in a written type is free: lower case, and the name of no type. -/
def DataTypes.isFreeName (r : DataTypes) (name : String) : Bool :=
  (r.lookupName? name).isNone && isParamName name

namespace TypeExpr

mutual

/-- A written type with written types for its free names. -/
def fill (r : DataTypes) (σ : String → TypeExpr) : TypeExpr → TypeExpr
  | .named name => if r.isFreeName name then σ name else .named name
  | .app name args => .app name (fillList r σ args)
  | .arrow domain codomain => .arrow (fill r σ domain) (fill r σ codomain)
  | .blank => .blank
  | .nat value => .nat value
  | .tag value => .tag value

def fillList (r : DataTypes) (σ : String → TypeExpr) : List TypeExpr → List TypeExpr
  | [] => []
  | e :: es => fill r σ e :: fillList r σ es

end

end TypeExpr

namespace DataTypes

variable {r : DataTypes} {scope : Scope} {D E G : Naming} {σ : String → TypeExpr}

mutual

theorem denote_fill (hσ : ∀ name, r.denote [] D (σ name) = G name) (e : TypeExpr) :
    r.denote [] D (e.fill r σ) = r.denote [] G e := by
  cases e with
  | blank => rfl
  | named name =>
      have hnamed : ∀ D : Naming, r.denote [] D (.named name) =
          (r.lookupName? name).or (if isParamName name then D name else none) := by
        intro D
        simp only [denote, List.lookup_nil]
        cases r.lookupName? name <;> rfl
      rw [TypeExpr.fill, hnamed G]
      by_cases hfree : r.isFreeName name = true
      · rw [if_pos hfree, hσ]
        rw [isFreeName, Bool.and_eq_true, Option.isNone_iff_eq_none] at hfree
        rw [hfree.1, hfree.2, Option.none_or, if_pos rfl]
      · rw [if_neg hfree, hnamed D]
        cases hname : r.lookupName? name with
        | some t => rfl
        | none =>
            have hparam : isParamName name = false := by simpa [isFreeName, hname] using hfree
            rw [hparam, if_neg Bool.false_ne_true, if_neg Bool.false_ne_true]
  | app name args => rw [TypeExpr.fill, denote, denote, denoteList_fill hσ args]
  | arrow domain codomain =>
      rw [TypeExpr.fill, denote, denote, denote_fill hσ domain, denote_fill hσ codomain]
  | nat value => rfl
  | tag value => rfl

theorem denoteList_fill (hσ : ∀ name, r.denote [] D (σ name) = G name) (es : List TypeExpr) :
    r.denoteList [] D (TypeExpr.fillList r σ es) = r.denoteList [] G es := by
  match es with
  | [] => rfl
  | e :: es => rw [TypeExpr.fillList, denoteList, denoteList, denote_fill hσ e, denoteList_fill hσ es]

end

mutual

theorem exists_denote (hD : ∀ name, (D name).isSome = true → (E name).isSome = true) {e : TypeExpr}
    {t : Ty} (h : r.denote scope D e = some t) : ∃ u, r.denote scope E e = some u := by
  cases e with
  | blank => cases h
  | named name =>
      have hname : D name = some t → ∃ u, E name = some u := fun h =>
        Option.isSome_iff_exists.1 (hD name (h ▸ rfl))
      rw [denote] at h ⊢
      cases hlookup : scope.lookup name with
      | some bound =>
          rw [hlookup] at h
          cases bound with
          | some u => exact ⟨t, h⟩
          | none => exact hname h
      | none =>
          rw [hlookup] at h
          cases hlookupName : r.lookupName? name with
          | some u =>
              simp only [hlookupName] at h ⊢
              exact ⟨t, h⟩
          | none =>
              simp only [hlookupName, Option.ite_none_right_eq_some] at h ⊢
              exact (hname h.2).imp fun _ hu => ⟨h.1, hu⟩
  | app name args =>
      obtain ⟨ts, hts, hname⟩ := denote_app_eq_some_iff.1 h
      obtain ⟨us, hus⟩ := exists_denoteList hD hts
      obtain ⟨u, hu⟩ := exists_applyName_eq_ok hname
        ((length_of_denoteList hus).trans (length_of_denoteList hts).symm)
      exact ⟨u, denote_app_eq_some_iff.2 ⟨us, hus, hu⟩⟩
  | arrow domain codomain =>
      obtain ⟨a, ha, b, hb, rfl⟩ := denote_arrow_eq_some_iff.1 h
      obtain ⟨a', ha'⟩ := exists_denote hD ha
      obtain ⟨b', hb'⟩ := exists_denote hD hb
      exact ⟨_, denote_arrow_eq_some_iff.2 ⟨a', ha', b', hb', rfl⟩⟩
  | nat value => exact ⟨t, h⟩
  | tag value => exact ⟨t, h⟩

theorem exists_denoteList (hD : ∀ name, (D name).isSome = true → (E name).isSome = true)
    {es : List TypeExpr} {ts : List Ty} (h : r.denoteList scope D es = some ts) :
    ∃ us, r.denoteList scope E es = some us := by
  match es with
  | [] => exact ⟨ts, h⟩
  | e :: es =>
      obtain ⟨t, ht, us, hus, rfl⟩ := denoteList_cons_eq_some_iff.1 h
      obtain ⟨t', ht'⟩ := exists_denote hD ht
      obtain ⟨us', hus'⟩ := exists_denoteList hD hus
      exact ⟨_, denoteList_cons_eq_some_iff.2 ⟨t', ht', us', hus', rfl⟩⟩

end

mutual

theorem denote_of_resolve {e : TypeExpr} {t : Ty} {s s' : NamedVars}
    (h : Attempt.Returns (r.resolve scope false e) s t s') : r.denote scope D e = some t := by
  cases e with
  | blank => cases h
  | named name =>
      rw [resolve] at h
      rw [denote]
      cases hlookup : scope.lookup name with
      | some bound =>
          rw [hlookup] at h
          cases bound with
          | some u =>
              cases h
              rfl
          | none => cases h
      | none =>
          rw [hlookup] at h
          cases hname : r.lookupName? name with
          | some u =>
              simp only [hname] at h ⊢
              cases h
              rfl
          | none =>
              simp only [hname] at h
              cases h
  | app name args =>
      rw [resolve] at h
      obtain ⟨ts, s₁, hts, h⟩ := Attempt.returns_bind_iff.1 h
      rw [Attempt.Returns, Attempt.outcome_liftExcept, Prod.mk.injEq] at h
      exact denote_app_eq_some_iff.2 ⟨ts, denoteList_of_resolveList hts, h.1⟩
  | arrow domain codomain =>
      rw [resolve] at h
      obtain ⟨a, s₁, ha, h⟩ := Attempt.returns_bind_iff.1 h
      obtain ⟨b, s₂, hb, h⟩ := Attempt.returns_bind_iff.1 h
      cases h
      exact denote_arrow_eq_some_iff.2 ⟨a, denote_of_resolve ha, b, denote_of_resolve hb, rfl⟩
  | nat value | tag value =>
      cases h
      rfl

theorem denoteList_of_resolveList {es : List TypeExpr} {ts : List Ty} {s s' : NamedVars}
    (h : Attempt.Returns (r.resolveList scope false es) s ts s') :
    r.denoteList scope D es = some ts := by
  match es with
  | [] =>
      cases h
      rfl
  | e :: es =>
      rw [resolveList] at h
      obtain ⟨t, s₁, ht, h⟩ := Attempt.returns_bind_iff.1 h
      obtain ⟨us, s₂, hus, h⟩ := Attempt.returns_bind_iff.1 h
      cases h
      exact denoteList_cons_eq_some_iff.2 ⟨t, denote_of_resolve ht, us, denoteList_of_resolveList hus, rfl⟩

end

theorem denote_of_resolveClosed {e : TypeExpr} {t : Ty} (h : r.resolveClosed scope e = .ok t)
    (D : Naming) : r.denote scope D e = some t :=
  denote_of_resolve (s := ⟨.startingAt 0, []⟩) (Prod.ext h rfl)

end DataTypes

/-- What is filled in for each name: a written type that stands for a type other than a function
type. -/
def DataTypes.FillsIn (r : DataTypes) (σ : String → TypeExpr) : Prop :=
  ∀ name, ∃ t, r.resolveClosed [] (σ name) = .ok t ∧ t.arity = 0

section

variable {r : DataTypes} {σ : String → TypeExpr} {es : List TypeExpr} {types : List Ty}
  {names : List (String × Int)} {u u' : Supply}

theorem denoteList_of_resolved
    (h : Attempt.Returns (r.resolveList [] true es) ⟨u, []⟩ types ⟨u', names⟩) (hu : u'.Unwrapped)
    (θ : Valuation) : r.denoteList [] (fun name => (names.lookup name).map θ) es =
      some (types.map (·.bind θ)) := by
  refine (((r.resolveList_finds [] es).finds _ _ _ h (fun v hv => absurd hv List.not_mem_nil) hu
    fun _ _ hmem => absurd hmem List.not_mem_nil).sound θ _ fun name id hid => ?_).2
  rw [hid, Option.map_some]

theorem exists_pinning (h : Attempt.Returns (r.resolveList [] true es) ⟨u, []⟩ types ⟨u', names⟩)
    (hu : u'.Unwrapped) (hσ : r.FillsIn σ) :
    ∃ (pins : Pinning) (ts : List Ty), (∀ x ∈ pins.ids, x ∈ names.map (·.2)) ∧
      (∀ θ, pins.Meets θ → types.map (·.bind θ) = ts) ∧
      ∀ D, r.denoteList [] D (TypeExpr.fillList r σ es) = some ts := by
  choose g hg using hσ
  have hground : ∀ name, (g name).Within fun _ => False := fun name => by
    have hends : Ends (fun t : Ty => t.Within fun _ => False) Fault.IsOrdinary _ := r.resolveClosed_ends
      (DataTypes.isWhole_of_resolveClosed (hg name).1) fun b hb => absurd hb List.not_mem_nil
    rwa [(hg name).1] at hends
  have hfill : ∀ D name, r.denote [] D (σ name) = some (g name) := fun D name =>
    DataTypes.denote_of_resolveClosed (hg name).1 D
  obtain ⟨ts, hts⟩ := DataTypes.exists_denoteList (E := fun name => some (g name))
    (fun _ _ => rfl) (denoteList_of_resolved h hu .var)
  obtain ⟨ρ, -, hρ, -⟩ := ((r.resolveList_finds [] es).finds _ _ _ h
    (fun v hv => absurd hv List.not_mem_nil) hu fun _ _ hmem => absurd hmem List.not_mem_nil).complete
    .var (fun name => some (g name)) ts (fun _ _ hid => by cases hid) hts
  obtain ⟨ids, hids⟩ : ∃ ids : List Int, ids = names.filterMap fun b => names.lookup b.1 := ⟨_, rfl⟩
  have hmem : ∀ x, x ∈ ids ↔ ∃ name, names.lookup name = some x := by
    intro x
    rw [hids, List.mem_filterMap]
    constructor
    · rintro ⟨b, -, hb⟩
      exact ⟨b.1, hb⟩
    · rintro ⟨name, hname⟩
      obtain ⟨front, back, hnames, -⟩ := List.lookup_eq_some_iff.1 hname
      exact ⟨(name, x), by simp [hnames], hname⟩
  have hvalue : ∀ x ∈ ids, ∃ name, ρ x = g name := by
    intro x hx
    obtain ⟨name, hname⟩ := (hmem x).1 hx
    exact ⟨name, (Option.some.inj (hρ name x hname)).symm⟩
  refine ⟨⟨ids, fun x => if x ∈ ids then ρ x else .scalar, fun x => ?_, fun x => ?_⟩, ts,
    fun x hx => ?_, fun θ hθ => ?_, fun D => (DataTypes.denoteList_fill (hfill D) es).trans hts⟩
  · dsimp only
    split
    · rename_i hx
      obtain ⟨name, hname⟩ := hvalue x hx
      exact hname ▸ (hground name).1
    · rfl
  · split
    · rename_i hx
      obtain ⟨name, hname⟩ := hvalue x hx
      exact hname ▸ (hg name).2
    · rfl
  · obtain ⟨name, hname⟩ := (hmem x).1 hx
    obtain ⟨front, back, hnames, -⟩ := List.lookup_eq_some_iff.1 hname
    exact List.mem_map.2 ⟨(name, x), by simp [hnames], rfl⟩
  · have hnames : ∀ name t, (names.lookup name).map θ = some t → some (g name) = some t := by
      intro name t hname
      obtain ⟨x, hx, rfl⟩ := Option.map_eq_some_iff.1 hname
      have hpin : θ x = if x ∈ ids then ρ x else .scalar := hθ x ((hmem x).2 ⟨name, hx⟩)
      rw [hpin, if_pos ((hmem x).2 ⟨name, hx⟩)]
      exact hρ name x hx
    have hsame := DataTypes.denoteList_mono hnames (denoteList_of_resolved h hu θ)
    exact Option.some.inj (hsame.symm.trans hts)

end

namespace Inference

variable {c : Context} {scope : Scope} {names names' : Annotations} {s s' : State}

theorem returns_annotated_iff {e : TypeExpr} {t : Ty} :
    (annotated c scope names e).Returns s (t, names') s' ↔ ∃ supply,
      Attempt.Returns (c.data.resolve scope true e) ⟨s.supply, names⟩ t ⟨supply, names'⟩ ∧
        s' = { s with supply } := by
  have houtcome : (annotated c scope names e).outcome s =
      ((Attempt.outcome (c.data.resolve scope true e) ⟨s.supply, names⟩).1.map
        (·, (Attempt.outcome (c.data.resolve scope true e) ⟨s.supply, names⟩).2.vars),
      { s with supply := (Attempt.outcome (c.data.resolve scope true e) ⟨s.supply, names⟩).2.supply }) :=
    rfl
  unfold Attempt.Returns
  rw [houtcome]
  rcases Attempt.outcome (c.data.resolve scope true e) ⟨s.supply, names⟩ with ⟨f | u, vars⟩
  · constructor
    · intro h
      cases h
    · rintro ⟨_, h, -⟩
      cases h
  · constructor
    · intro h
      cases h
      exact ⟨_, rfl, rfl⟩
    · rintro ⟨supply, h, rfl⟩
      cases h
      rfl

/-- Resolving some annotations is resolving their list. -/
theorem returns_annotatedList_iff {es : List TypeExpr} {ts : List Ty} :
    (annotatedList c scope names es).Returns s (ts, names') s' ↔ ∃ supply,
      Attempt.Returns (c.data.resolveList scope true es) ⟨s.supply, names⟩ ts ⟨supply, names'⟩ ∧
        s' = { s with supply } := by
  induction es generalizing names s ts with
  | nil =>
      constructor
      · intro h
        cases h
        exact ⟨_, rfl, rfl⟩
      · rintro ⟨_, h, rfl⟩
        cases h
        rfl
  | cons e es ih =>
      rw [annotatedList, DataTypes.resolveList]
      constructor
      · intro h
        obtain ⟨⟨t, between⟩, s₁, he, h⟩ := Attempt.returns_bind_iff.1 h
        obtain ⟨⟨us, behind⟩, s₂, hes, h⟩ := Attempt.returns_bind_iff.1 h
        cases h
        obtain ⟨supply, hresolve, rfl⟩ := returns_annotated_iff.1 he
        obtain ⟨supply', hresolves, rfl⟩ := ih.1 hes
        exact ⟨supply', Attempt.returns_bind_iff.2 ⟨t, _, hresolve, Attempt.returns_bind_iff.2
          ⟨us, _, hresolves, rfl⟩⟩, rfl⟩
      · rintro ⟨supply', h, rfl⟩
        obtain ⟨t, ⟨supply, between⟩, he, h⟩ := Attempt.returns_bind_iff.1 h
        obtain ⟨us, _, hes, h⟩ := Attempt.returns_bind_iff.1 h
        cases h
        exact Attempt.returns_bind_iff.2 ⟨_, _, returns_annotated_iff.2 ⟨supply, he, rfl⟩,
          Attempt.returns_bind_iff.2 ⟨_, _, ih.2 ⟨supply', hes, rfl⟩, rfl⟩⟩

/-- A written type without names before stands for what its scope and some types for its free names
make of it. -/
theorem annotated_finds (c : Context) (scope : Scope) (e : TypeExpr) :
    Finds inferView (Known (e.isWhole = true) ⊓ scope.inScope) (annotated c scope [] e)
      (fun r => r.1.inScope) (fun r θ => r.1.bind θ)
      fun θ _ t => t.isMono = true ∧ ∃ D : Naming, c.data.denote (scope.bind θ) D e = some t where
  toKeeps := (annotated_keeps c scope [] e).weaken (fun n h => ⟨h, every_nil _ n⟩) fun _ _ h => h.1
  finds s r s' hrun hs hs' hpre := by
    obtain ⟨supply, hresolve, rfl⟩ := returns_annotated_iff.1 hrun
    have hvars : namedView.sound ⟨s.supply, []⟩ := fun v hv => absurd hv List.not_mem_nil
    have hfinds := c.data.resolve_finds scope e
    obtain ⟨-, hscope, -⟩ := hfinds.of_returns hresolve hs' hvars hpre.2
    have hexplains := hfinds.finds _ _ _ hresolve hvars hs' hpre.2
    refine ⟨fun θ D hθ => ⟨⟨hθ.mono, hθ.naming, hθ.subst, hθ.free⟩,
      Ty.isMono_bind hscope.1 fun x _ => hθ.mono x, ?_⟩, fun θ D t hθ ht => ?_⟩
    · refine ⟨fun name => (r.2.lookup name).map θ, (hexplains.sound θ _ fun name id hid => ?_).2⟩
      rw [hid, Option.map_some]
    · obtain ⟨hvalue, named, hdenote⟩ := ht
      obtain ⟨ρ, hagree, -, rfl⟩ := hexplains.complete θ named t (fun _ _ h => by cases h) hdenote
      -- only the variables of the type matter, and those stand for monotypes
      have hmono : ∀ x, (if (ρ x).isMono then ρ x else .scalar).isMono = true := by
        intro x
        split
        · assumption
        · rfl
      have hsame : Valuation.AgreesBelow s.supply.next θ
          fun x => if (ρ x).isMono then ρ x else .scalar := fun x hx => by
        dsimp only
        rw [← hagree x hx, if_pos (hθ.mono x)]
      have hadmits := hθ.of_agreesBelow hs hsame hmono
      refine ⟨_, hsame, ⟨hmono, hadmits.naming, hadmits.subst, hadmits.free⟩, ?_⟩
      exact Ty.bind_congr fun x hx => if_pos (Ty.isMono_of_isMono_bind hvalue hx hscope.1)

theorem annotated_succeeds (c : Context) (scope : Scope) (e : TypeExpr) {P : Upward} :
    Succeeds inferView P (annotated c scope [] e)
      fun θ _ t => t.isMono = true ∧ ∃ D : Naming, c.data.denote (scope.bind θ) D e = some t := by
  rintro s - - - θ D t - ⟨-, named, hdenote⟩
  obtain ⟨u, vars, hresolve⟩ := DataTypes.returns_resolve_of_denote hdenote ⟨s.supply, []⟩
  exact ⟨_, _, returns_annotated_iff.2 ⟨vars.supply, hresolve, rfl⟩⟩

/-- What comes of type arguments is in scope, and so are the variables of their free names. -/
theorem scoped_of_annotatedList {es : List TypeExpr} {types : List Ty}
    (h : (annotatedList c [] [] es).Returns s (types, names) s') (hs : s.Sound)
    (hu : s'.supply.Unwrapped) : s'.Sound ∧ Every Ty.inScope types s'.supply.next ∧
      ∀ x ∈ names.map (·.2), x < s'.supply.next := by
  obtain ⟨supply, hresolve, -⟩ := returns_annotatedList_iff.1 h
  obtain ⟨hs', ⟨htypes, hnames⟩, -⟩ := (annotatedList_keeps c [] [] es).of_returns h hu hs
    ⟨⟨DataTypes.isWholeList_of_resolveList hresolve, fun _ _ hmem => absurd hmem List.not_mem_nil⟩,
      every_nil _ _⟩
  refine ⟨hs', htypes, fun x hx => ?_⟩
  obtain ⟨b, hb, rfl⟩ := List.mem_map.1 hx
  exact hnames b hb

/-- A state in which nothing is known. -/
def State.IsBlank (s : State) : Prop := s.subst = ∅ ∧ s.free = []

theorem State.IsBlank.admits_iff (h : s.IsBlank) (θ : Valuation) (D : Naming) :
    s.Admits θ D ↔ θ.IsMono ∧ D.IsMono := by
  constructor
  · exact fun hθ => ⟨hθ.mono, hθ.naming⟩
  · rintro ⟨hθ, hD⟩
    refine ⟨hθ, hD, h.1 ▸ θ.solves_empty, fun name id hid => ?_⟩
    rw [h.2] at hid
    cases hid

theorem State.IsBlank.apply (h : s.IsBlank) (t : Ty) : s.subst.apply t = t := by
  rw [Subst.apply_eq_bind, h.1]
  exact Ty.bind_var t

theorem isBlank_of_annotated {e : TypeExpr} {t : Ty} (hblank : s.IsBlank)
    (h : (annotated c scope names e).Returns s (t, names') s') : s'.IsBlank := by
  obtain ⟨supply, -, rfl⟩ := returns_annotated_iff.1 h
  exact hblank

theorem isBlank_of_annotatedList {es : List TypeExpr} {types : List Ty} (hblank : s.IsBlank)
    (h : (annotatedList c [] [] es).Returns s (types, names) s') : s'.IsBlank := by
  obtain ⟨supply, -, rfl⟩ := returns_annotatedList_iff.1 h
  exact hblank

theorem linked_of_annotatedList {es : List TypeExpr} {σ : String → TypeExpr} {types types' : List Ty}
    {s₁ s₁' : State} (hσ : c.data.FillsIn σ) (hs : s.Sound) (hs' : s'.Sound) (hblank : s.IsBlank)
    (hblank' : s'.IsBlank) (h : (annotatedList c [] [] es).Returns s (types, names) s₁)
    (h' : (annotatedList c [] [] (TypeExpr.fillList c.data σ es)).Returns s' (types', names') s₁')
    (hu : s₁.supply.Unwrapped) (hu' : s₁'.supply.Unwrapped) :
    ∃ pins : Pinning, (∀ x ∈ pins.ids, x ∈ names.map (·.2)) ∧
      Linked pins (fun _ _ => True) s₁ s₁' (fun θ => types.map (·.bind θ))
        fun θ => types'.map (·.bind θ) := by
  obtain ⟨hs₁, htypes, hnames⟩ := scoped_of_annotatedList h hs hu
  obtain ⟨hs₁', htypes', -⟩ := scoped_of_annotatedList h' hs' hu'
  have hadmits := (isBlank_of_annotatedList hblank h).admits_iff
  have hadmits' := (isBlank_of_annotatedList hblank' h').admits_iff
  obtain ⟨supply, hresolve, rfl⟩ := returns_annotatedList_iff.1 h
  obtain ⟨supply', hresolve', rfl⟩ := returns_annotatedList_iff.1 h'
  obtain ⟨pins, ts, hids, hpinned, hfilled⟩ := exists_pinning hresolve hu hσ
  have hclosed : ∀ θ : Valuation, types'.map (·.bind θ) = ts := fun θ =>
    Option.some.inj ((denoteList_of_resolved hresolve' hu' θ).symm.trans (hfilled _))
  refine ⟨pins, hids, hs₁, hs₁', fun x hx => hnames x (hids x hx),
    fun θ θ' hagree => hagree.map_bind_eq htypes, fun θ θ' hagree => hagree.map_bind_eq htypes',
    fun _ _ _ => trivial, fun _ _ _ => trivial, fun D r => ?_⟩
  simp only [hadmits, hadmits', hclosed]
  constructor
  · rintro ⟨θ, ⟨-, hD⟩, hθ, rfl⟩
    exact ⟨.var, ⟨fun _ => rfl, hD⟩, (hpinned θ hθ).symm⟩
  · rintro ⟨θ, ⟨-, hD⟩, rfl⟩
    exact ⟨pins.type, ⟨pins.mono, hD⟩, fun _ _ => rfl, hpinned _ fun _ _ => rfl⟩

theorem exists_annotatedList {es : List TypeExpr} {σ : String → TypeExpr} {types : List Ty}
    {s₁ : State} (hσ : c.data.FillsIn σ)
    (h : (annotatedList c [] [] es).Returns s (types, names) s₁) (hu : s₁.supply.Unwrapped)
    (s' : State) : ∃ types' names' s₁',
      (annotatedList c [] [] (TypeExpr.fillList c.data σ es)).Returns s' (types', names') s₁' := by
  obtain ⟨supply, hresolve, rfl⟩ := returns_annotatedList_iff.1 h
  obtain ⟨pins, ts, -, -, hfilled⟩ := exists_pinning hresolve hu hσ
  obtain ⟨types', vars, hresolve'⟩ := DataTypes.returns_resolveList_of_denoteList (θ := .var)
    (show c.data.denoteList (Scope.bind [] .var) .empty _ = some ts from hfilled .empty) ⟨s'.supply, []⟩
  exact ⟨types', vars.vars, _, returns_annotatedList_iff.2 ⟨vars.supply, hresolve', rfl⟩⟩

end Inference

end Formulary
