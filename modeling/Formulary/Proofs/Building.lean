import Formulary.Proofs.Acceptance
import Formulary.Proofs.Generalization

namespace Formulary

theorem Supply.next_after_of_unwrapped {u : Supply} {n i : Nat} (h : (u.after n).Unwrapped)
    (hi : i ≤ n) : (u.after i).next = u.next + i := by
  have hle : u ≤ u.after i := ⟨rfl, Nat.le_add_right _ _⟩
  have hbetween : (u.after i).Unwrapped := h.of_le ⟨rfl, Nat.add_le_add_left hi _⟩
  rw [hbetween.next_eq, (hbetween.of_le hle).next_eq]
  simp only [after, Int.natCast_add]
  omega

theorem Supply.exists_perm {u v : Supply} {n : Nat} (hu : (u.after n).Unwrapped)
    (hv : (v.after n).Unwrapped) {xs : List Int} (hxs : ∀ x ∈ xs, x < u.next ∧ x < v.next) :
    ∃ ρ : Equiv.Perm Int, (∀ x ∈ xs, ρ x = x) ∧ ∀ i < n, ρ (u.after i).next = (v.after i).next := by
  obtain ⟨ρ, hρ, -⟩ := exists_perm_extending
    (V := xs.toFinset ∪ (Finset.Ico u.next (u.next + n) ∪ Finset.Ico v.next (v.next + n)))
    (p := fun x => x ∈ xs ∨ u.next ≤ x ∧ x < u.next + n)
    (f := fun x => if x < u.next then x else x - u.next + v.next)
    (by
      intro x _ hx
      simp only [Finset.mem_union, List.mem_toFinset, Finset.mem_Ico]
      rcases hx with hx | hx
      · rw [if_pos (hxs x hx).1]
        exact .inl hx
      · rw [if_neg (by omega)]
        exact .inr (.inr (by omega)))
    (by
      -- what is left alone is older than the images of the rest
      intro x _ hx y _ hy heq
      have hold : ∀ z ∈ xs, z < v.next := fun z hz => (hxs z hz).2
      grind)
  refine ⟨ρ, fun x hx => ?_, fun i hi => ?_⟩
  · rw [hρ x (by simp [hx]) (.inl hx), if_pos (hxs x hx).1]
  · rw [next_after_of_unwrapped hu hi.le, next_after_of_unwrapped hv hi.le,
      hρ (u.next + i) (by simp [hi]) (.inr (by omega)), if_neg (by omega)]
    omega

namespace Signature

/-- The bindings of a call when the next variable has been handed out for a parameter. -/
def Progress.draw (p : Progress) (name : String) (kind : ParamKind) (arg : Nat) : Progress :=
  { p with
    supply := p.supply.advance
    bindings := p.bindings.insert name ⟨kind, .var p.supply.next, arg⟩ }

theorem Progress.naming_draw (p : Progress) (name : String) (kind : ParamKind) (arg : Nat)
    (other : String) : (p.draw name kind arg).naming other =
      if name = other then some (.var p.supply.next) else p.naming other := by
  simp only [naming, draw, SortedMap.get?_insert]
  split
  · rfl
  · rfl

theorem Progress.extends_draw {p : Progress} {name : String} (hname : p.naming name = none)
    (kind : ParamKind) (arg : Nat) : (p.draw name kind arg).naming.Extends p.naming := by
  intro other t ht
  rw [naming_draw, if_neg, ht]
  rintro rfl
  rw [hname] at ht
  cases ht

/-- The variables of what is bound have been handed out. -/
def Progress.HandedOut (p : Progress) : Prop :=
  ∀ name t, p.naming name = some t → ∀ x ∈ t.freeOccurrences, x < p.supply.next

namespace Call

variable {c : Call} {mode : Unbound} {arg : Nat} {hint : ParamKind} {name : String} {p : Progress}

theorem returns_build_bound (hparam : c.isParam name = true) {t : Ty} (ht : p.naming name = some t) :
    Attempt.Returns (c.build mode arg hint (.named name)) p t p := by
  obtain ⟨b, hb, rfl⟩ := Option.map_eq_some_iff.1 ht
  rw [build, if_pos hparam, Attempt.Returns, Attempt.outcome_bind, Attempt.outcome_get]
  dsimp only
  rw [hb]
  rfl

theorem returns_build_draw (hparam : c.isParam name = true) (hname : p.naming name = none) :
    Attempt.Returns (c.build .fresh arg hint (.named name)) p (.var p.supply.next)
      (p.draw name (c.kindOf p.bindings name hint) arg) := by
  rw [build, if_pos hparam, Attempt.Returns, Attempt.outcome_bind, Attempt.outcome_get]
  dsimp only
  rw [Option.map_eq_none_iff.1 hname]
  rfl

theorem returns_build_declared (hparam : c.isParam name = false) {t : Ty}
    (ht : c.data.lookupName? name = some t) :
    Attempt.Returns (c.build mode arg hint (.named name)) p t p := by
  rw [build, hparam, DataTypes.resolveClosed_named, ht]
  rfl

theorem isParam_of_declared (h : name ∈ c.interface.params.map (·.name)) : c.isParam name = true := by
  obtain ⟨q, hq, rfl⟩ := List.mem_map.1 h
  rw [isParam, List.any_eq_true.2 ⟨q, hq, decide_eq_true rfl⟩, Bool.true_or]

theorem isParam_of_not_declared (h : name ∉ c.interface.params.map (·.name)) :
    c.isParam name = (isParamName name && (c.data.lookupName? name).isNone) := by
  have hany : (c.interface.params.any fun q => decide (q.name = name)) = false := by
    refine List.any_eq_false.2 fun q hq heq => h (List.mem_map.2 ⟨q, hq, ?_⟩)
    exact of_decide_eq_true heq
  rw [isParam, hany, Bool.false_or]

/-- A parameter of a call that a scope has no type for. -/
def IsOpen (c : Call) (scope : Scope) (name : String) : Prop :=
  c.isParam name = true ∧ (scope.lookup name).join = none

/-- A call has bound the names of a scope as the scope does, and no other parameter but to the type
that the name has got. -/
structure Shares (c : Call) (p : Progress) (scope : Scope) (given : Naming) : Prop where
  values : ∀ name value, scope.lookup name = some value → p.naming name = value
  others : ∀ name t, c.isParam name = true → scope.lookup name = none → p.naming name = some t →
    given name = some t

/-- A call has bound what a scope has a type for, and else nothing but names that have got a type. -/
structure Abreast (c : Call) (scope : Scope) (p : Progress) (given : Naming) : Prop where
  valued : ∀ name t, scope.lookup name = some (some t) → p.naming name = some t
  got : ∀ name, c.IsOpen scope name → (p.naming name).isSome → (given name).isSome

/-- A valuation leaves the types of a scope alone and makes of what a call has bound what the names
have got. -/
structure Leads (c : Call) (scope : Scope) (θ : Valuation) (p : Progress) (given : Naming) : Prop where
  kept : ∀ name t, scope.lookup name = some (some t) → t.bind θ = t
  got : ∀ name t, c.IsOpen scope name → p.naming name = some t → given name = some (t.bind θ)

variable {scope : Scope} {σ : Type} {free : FreeNames σ} {given : σ → Naming}
  {R : Progress → σ → Prop}

/-- A relation that reading an open name on both sides leaves as it is. -/
structure Carries (c : Call) (scope : Scope) (free : FreeNames σ) (R : Progress → σ → Prop) :
    Prop where
  bound : ∀ {name p s t s'}, c.IsOpen scope name → (p.naming name).isSome → R p s →
    Attempt.Returns (free name) s t s' → R p s'
  drawn : ∀ {name p s t s'} (kind : ParamKind) (arg : Nat), c.IsOpen scope name →
    p.naming name = none → R p s → Attempt.Returns (free name) s t s' → R (p.draw name kind arg) s'

/-- Both sides have gone on: neither has forgotten a name, and they are still abreast. -/
structure GoesOn (c : Call) (scope : Scope) (given : σ → Naming) (R : Progress → σ → Prop)
    (p : Progress) (s : σ) (p' : Progress) (s' : σ) : Prop where
  naming : p'.naming.Extends p.naming
  got : (given s').Extends (given s)
  abreast : c.Abreast scope p' (given s')
  carried : R p' s'

theorem GoesOn.refl {s : σ} (habreast : c.Abreast scope p (given s)) (hR : R p s) :
    c.GoesOn scope given R p s p s :=
  ⟨fun _ _ h => h, fun _ _ h => h, habreast, hR⟩

theorem GoesOn.trans {p' p'' : Progress} {s s' s'' : σ} (h : c.GoesOn scope given R p s p' s')
    (h' : c.GoesOn scope given R p' s' p'' s'') : c.GoesOn scope given R p s p'' s'' :=
  ⟨fun name t ht => h'.naming name t (h.naming name t ht),
    fun name t ht => h'.got name t (h.got name t ht), h'.abreast, h'.carried⟩

/-- What leads from one side to the other in the end does so before. -/
theorem Leads.before {p' : Progress} {s s' : σ} {θ : Valuation}
    (hθ : c.Leads scope θ p' (given s')) (habreast : c.Abreast scope p (given s))
    (h : c.GoesOn scope given R p s p' s') : c.Leads scope θ p (given s) where
  kept := hθ.kept
  got name t hopen ht := by
    have hsome : (p.naming name).isSome := by rw [ht]; rfl
    obtain ⟨u, hu⟩ := Option.isSome_iff_exists.1 (habreast.got name hopen hsome)
    rw [hu, ← h.got name u hu, hθ.got name t hopen (h.naming name t ht)]

theorem Shares.given_of_isOpen {N : Naming} (h : c.Shares p scope N) (hopen : c.IsOpen scope name)
    {t : Ty} (ht : p.naming name = some t) : N name = some t := by
  cases hlookup : scope.lookup name with
  | none => exact h.others name t hopen.1 hlookup ht
  | some value =>
      have hnone : value = none := by simpa [hlookup] using hopen.2
      rw [h.values name value hlookup, hnone] at ht
      cases ht

theorem Shares.abreast {N : Naming} (h : c.Shares p scope N) : c.Abreast scope p N where
  valued name t ht := h.values name (some t) ht
  got name hopen hsome := by
    obtain ⟨t, ht⟩ := Option.isSome_iff_exists.1 hsome
    rw [h.given_of_isOpen hopen ht]
    rfl

theorem Abreast.mono {N N' : Naming} (h : c.Abreast scope p N) (hN : N'.Extends N) :
    c.Abreast scope p N' where
  valued := h.valued
  got name hopen hsome := by
    obtain ⟨t, ht⟩ := Option.isSome_iff_exists.1 (h.got name hopen hsome)
    rw [hN name t ht]
    rfl

theorem Abreast.draw {N : Naming} (h : c.Abreast scope p N) (hname : p.naming name = none)
    (hgot : (N name).isSome) (kind : ParamKind) (arg : Nat) :
    c.Abreast scope (p.draw name kind arg) N where
  valued other t ht := Progress.extends_draw hname kind arg other t (h.valued other t ht)
  got other hopen hsome := by
    rw [Progress.naming_draw] at hsome
    split at hsome
    · rename_i heq
      exact heq ▸ hgot
    · exact h.got other hopen hsome

theorem build_open (hfree : free.Remembers given) (hcarries : c.Carries scope free R)
    (hopen : c.IsOpen scope name) {s : σ} (habreast : c.Abreast scope p (given s)) (hR : R p s) :
    ∃ t p' t' s', Attempt.Returns (c.build .fresh arg hint (.named name)) p t p' ∧
      Attempt.Returns (free name) s t' s' ∧ c.GoesOn scope given R p s p' s' ∧
      ∀ θ, c.Leads scope θ p' (given s') → t' = t.bind θ := by
  obtain ⟨t', s', hrun, hnow, hbefore⟩ := hfree name s
  have hleads : ∀ {p' : Progress} {t θ}, p'.naming name = some t →
      c.Leads scope θ p' (given s') → t' = t.bind θ := fun ht hθ =>
    Option.some.inj (hnow.symm.trans (hθ.got name _ hopen ht))
  have habreast' := habreast.mono hbefore
  cases hname : p.naming name with
  | some t =>
      exact ⟨t, p, t', s', returns_build_bound hopen.1 hname, hrun,
        ⟨fun _ _ h => h, hbefore, habreast', hcarries.bound hopen (by rw [hname]; rfl) hR hrun⟩,
        fun θ => hleads hname⟩
  | none =>
      have hgot : (given s' name).isSome := by
        rw [hnow]
        rfl
      exact ⟨_, _, t', s', returns_build_draw hopen.1 hname, hrun,
        ⟨Progress.extends_draw hname _ _, hbefore, habreast'.draw hname hgot _ _,
          hcarries.drawn _ _ hopen hname hR hrun⟩,
        fun θ => hleads (by rw [Progress.naming_draw, if_pos rfl])⟩

mutual

/-- A signature whose names are accepted is built and resolved side by side. -/
theorem build_beside (hfree : free.Remembers given) (hcarries : c.Carries scope free R)
    {r : Registry} (hdata : c.data = r.data) (hscope : scope.Binds (c.interface.params.map (·.name)))
    {e : TypeExpr} (hwhole : e.isWhole = true)
    (hnames : r.checkNames (c.interface.params.map (·.name)) e = .ok ()) (arg : Nat)
    (hint : ParamKind) {p : Progress} {s : σ} (habreast : c.Abreast scope p (given s))
    (hR : R p s) :
    ∃ t p' t' s', Attempt.Returns (c.build .fresh arg hint e) p t p' ∧
      Attempt.Returns (r.data.resolveWith scope (some free) e) s t' s' ∧
      c.GoesOn scope given R p s p' s' ∧
      ∀ θ, c.Leads scope θ p' (given s') → t' = t.bind θ := by
  cases e with
  | blank => cases hwhole
  | named name =>
      rw [DataTypes.resolveWith]
      cases hlookup : scope.lookup name with
      | some value =>
          have hparam := isParam_of_declared ((hscope name).1 (by rw [hlookup]; rfl))
          cases value with
          | some t =>
              exact ⟨t, p, t, s, returns_build_bound hparam (habreast.valued name t hlookup), rfl,
                .refl habreast hR, fun θ hθ => (hθ.kept name t hlookup).symm⟩
          | none => exact build_open hfree hcarries ⟨hparam, by rw [hlookup]; rfl⟩ habreast hR
      | none =>
          have hnew : name ∉ c.interface.params.map (·.name) := fun hmem => by
            have hsome := (hscope name).2 hmem
            rw [hlookup] at hsome
            cases hsome
          have hparam := isParam_of_not_declared hnew
          cases hname : r.data.lookupName? name with
          | some t =>
              rw [hdata, hname, Option.isNone_some, Bool.and_false] at hparam
              exact ⟨t, p, t, s, returns_build_declared hparam (hdata ▸ hname), rfl,
                .refl habreast hR, fun θ _ => (DataTypes.bind_of_lookupName? hname).symm⟩
          | none =>
              -- a name that stands for nothing is accepted in lower case only
              have hlower : isParamName name = true := by
                simpa [hnew, hname] using Registry.checkNames_named_iff.1 hnames
              rw [hdata, hname, hlower] at hparam
              dsimp only
              rw [if_pos hlower]
              exact build_open hfree hcarries ⟨hparam, by rw [hlookup]; rfl⟩ habreast hR
  | app name args =>
      obtain ⟨⟨kinds, hkinds, hlength⟩, hargs⟩ := Registry.checkNames_app_iff.1 hnames
      obtain ⟨ts, p', ts', s', hbuild, hresolve, hsame, hgoes, hleads⟩ :=
        buildList_beside hfree hcarries hdata hscope hwhole hargs arg name 0 habreast hR
      have hcount := hlength.trans (DataTypes.length_of_resolveWithList hresolve).symm
      obtain ⟨t', ht'⟩ := DataTypes.exists_applyName_iff.2 ⟨kinds, hkinds, hcount⟩
      obtain ⟨t, ht⟩ := DataTypes.exists_applyName_iff.2 ⟨kinds, hkinds, hcount.trans hsame.symm⟩
      refine ⟨t, p', t', s', ?_, ?_, hgoes, fun θ hθ => ?_⟩
      · rw [build, hdata]
        exact Attempt.returns_bind_iff.2 ⟨ts, p', hbuild, by rw [ht]; rfl⟩
      · rw [DataTypes.resolveWith]
        exact Attempt.returns_bind_iff.2 ⟨ts', s', hresolve, by rw [ht']; rfl⟩
      · have hbound := DataTypes.applyName_bind (θ := θ) ht
        rw [← hleads θ hθ, ht'] at hbound
        exact Except.ok.inj hbound
  | arrow domain codomain =>
      obtain ⟨hwholeA, hwholeB⟩ := Bool.and_eq_true_iff.1 hwhole
      obtain ⟨hdomain, hcodomain⟩ := Registry.checkNames_arrow_iff.1 hnames
      obtain ⟨a, p₁, a', s₁, hbuildA, hresolveA, hgoesA, hleadsA⟩ :=
        build_beside hfree hcarries hdata hscope hwholeA hdomain arg .type habreast hR
      obtain ⟨b, p₂, b', s₂, hbuildB, hresolveB, hgoesB, hleadsB⟩ :=
        build_beside hfree hcarries hdata hscope hwholeB hcodomain arg .type hgoesA.abreast
          hgoesA.carried
      refine ⟨.fn a b, p₂, .fn a' b', s₂, ?_, ?_, hgoesA.trans hgoesB, fun θ hθ => ?_⟩
      · rw [build]
        exact Attempt.returns_bind_iff.2 ⟨a, p₁, hbuildA,
          Attempt.returns_bind_iff.2 ⟨b, p₂, hbuildB, rfl⟩⟩
      · rw [DataTypes.resolveWith]
        exact Attempt.returns_bind_iff.2 ⟨a', s₁, hresolveA,
          Attempt.returns_bind_iff.2 ⟨b', s₂, hresolveB, rfl⟩⟩
      · rw [Ty.bind, hleadsB θ hθ, hleadsA θ (hθ.before hgoesA.abreast hgoesB)]
  | nat value => exact ⟨_, p, _, s, rfl, rfl, .refl habreast hR, fun _ _ => rfl⟩
  | tag value => exact ⟨_, p, _, s, rfl, rfl, .refl habreast hR, fun _ _ => rfl⟩

theorem buildList_beside (hfree : free.Remembers given) (hcarries : c.Carries scope free R)
    {r : Registry} (hdata : c.data = r.data) (hscope : scope.Binds (c.interface.params.map (·.name)))
    {es : List TypeExpr} (hwhole : TypeExpr.isWholeList es = true)
    (hnames : r.checkNamesList (c.interface.params.map (·.name)) es = .ok ()) (arg : Nat)
    (name : String) (i : Nat) {p : Progress} {s : σ} (habreast : c.Abreast scope p (given s))
    (hR : R p s) :
    ∃ ts p' ts' s', Attempt.Returns (c.buildList .fresh arg name i es) p ts p' ∧
      Attempt.Returns (r.data.resolveWithList scope (some free) es) s ts' s' ∧
      ts.length = ts'.length ∧ c.GoesOn scope given R p s p' s' ∧
      ∀ θ, c.Leads scope θ p' (given s') → ts' = ts.map (·.bind θ) := by
  match es with
  | [] => exact ⟨[], p, [], s, rfl, rfl, rfl, .refl habreast hR, fun _ _ => rfl⟩
  | e :: es =>
      obtain ⟨hwhole₁, hwhole₂⟩ := Bool.and_eq_true_iff.1 hwhole
      obtain ⟨hfirst, hrest⟩ := Registry.checkNamesList_cons_iff.1 hnames
      obtain ⟨t, p₁, t', s₁, hbuild, hresolve, hgoes, hleads⟩ :=
        build_beside hfree hcarries hdata hscope hwhole₁ hfirst arg (c.data.fieldKind name i)
          habreast hR
      obtain ⟨ts, p₂, ts', s₂, hbuilds, hresolves, hsame, hgoes', hleads'⟩ :=
        buildList_beside hfree hcarries hdata hscope hwhole₂ hrest arg name (i + 1) hgoes.abreast
          hgoes.carried
      refine ⟨t :: ts, p₂, t' :: ts', s₂, ?_, ?_, congrArg (· + 1) hsame, hgoes.trans hgoes',
        fun θ hθ => ?_⟩
      · rw [buildList]
        exact Attempt.returns_bind_iff.2 ⟨t, p₁, hbuild,
          Attempt.returns_bind_iff.2 ⟨ts, p₂, hbuilds, rfl⟩⟩
      · rw [DataTypes.resolveWithList]
        exact Attempt.returns_bind_iff.2 ⟨t', s₁, hresolve,
          Attempt.returns_bind_iff.2 ⟨ts', s₂, hresolves, rfl⟩⟩
      · rw [List.map_cons, hleads' θ hθ, hleads θ (hθ.before hgoes.abreast hgoes')]

end

/-- A call has since handed out a variable for each of some names, in this order. -/
def Drew (c : Call) (scope : Scope) (p p' : Progress) (names : List String) : Prop :=
  p'.supply = p.supply.after names.length ∧ ∀ name, c.IsOpen scope name →
    p'.naming name = p.naming name ∨
    ∃ i, names[i]? = some name ∧ p'.naming name = some (.var (p.supply.after i).next)

theorem carries_drew (p : Progress) :
    c.Carries scope free fun p' _ => ∃ names, c.Drew scope p p' names where
  bound _ _ h _ := h
  drawn {name p' _ _ _} kind arg hopen _ := by
    rintro ⟨names, hsupply, hnames⟩ -
    refine ⟨names ++ [name], by rw [Progress.draw, hsupply, List.length_append]; rfl,
      fun other hother => ?_⟩
    rw [Progress.naming_draw, hsupply]
    by_cases heq : name = other
    · exact .inr ⟨names.length, by simp [heq], if_pos heq⟩
    · rw [if_neg heq]
      refine (hnames other hother).imp_right fun ⟨i, hi, hname⟩ => ⟨i, ?_, hname⟩
      rw [List.getElem?_append_left (List.getElem?_eq_some_iff.1 hi).1, hi]

/-- Puts what names have got for the variables that a call hands out for them. -/
def replacing (p : Progress) (names : List String) (given : Naming) : Valuation := fun x =>
  if x < p.supply.next then .var x
  else ((names[(x - p.supply.next).toNat]?).bind given).getD (.var x)

theorem replacing_next_after {p' : Progress} {names : List String} (hu : p'.supply.Unwrapped)
    (hsupply : p'.supply = p.supply.after names.length) {i : Nat} (hi : names[i]? = some name)
    {N : Naming} {t : Ty} (ht : N name = some t) :
    replacing p names N (p.supply.after i).next = t := by
  have hlt : i < names.length := (List.getElem?_eq_some_iff.1 hi).1
  have hnext := Supply.next_after_of_unwrapped (hsupply ▸ hu) hlt.le
  have hplace : ((p.supply.after i).next - p.supply.next).toNat = i := by omega
  rw [replacing, if_neg (by omega), hplace, hi, Option.bind_some, ht, Option.getD_some]

/-- The variables that a call has handed out are all different, and newer than what was bound before.
So each can be replaced by what its name has got. -/
theorem Drew.leads {p' : Progress} {names : List String} {N N' : Naming}
    (h : c.Drew scope p p' names) (hu : p'.supply.Unwrapped) (hp : p.HandedOut)
    (hshares : c.Shares p scope N) (hN : N'.Extends N) (habreast : c.Abreast scope p' N') :
    c.Leads scope (replacing p names N') p' N' := by
  obtain ⟨hsupply, hnames⟩ := h
  have hold : ∀ name t, p.naming name = some t → t.bind (replacing p names N') = t :=
    fun name t ht => Ty.bind_eq_self fun x hx => if_pos (hp name t ht x hx)
  refine ⟨fun name t ht => hold name t (hshares.values name _ ht), fun name t hopen ht => ?_⟩
  obtain hname | ⟨i, hi, hname⟩ := hnames name hopen
  · rw [hname] at ht
    rw [hold name t ht]
    exact hN name t (hshares.given_of_isOpen hopen ht)
  · obtain rfl := Option.some.inj (hname.symm.trans ht)
    obtain ⟨u, hgot⟩ := Option.isSome_iff_exists.1 (habreast.got name hopen (by rw [hname]; rfl))
    rw [hgot, Ty.bind, replacing_next_after hu hsupply hi hgot]

/-- Both sides have handed out as many variables from where they started, in the same order and for
the same names. -/
def Level (c : Call) (scope : Scope) (u v : Supply) (p : Progress) (s : NamedVars) : Prop :=
  ∃ n, p.supply = u.after n ∧ s.supply = v.after n ∧ ∀ name, c.IsOpen scope name →
    (p.naming name = none ∧ s.vars.lookup name = none) ∨
    ∃ i < n, p.naming name = some (.var (u.after i).next) ∧
      s.vars.lookup name = some (v.after i).next

theorem carries_level (u v : Supply) :
    c.Carries scope DataTypes.freeParam (c.Level scope u v) where
  bound {name p s t s'} hopen hsome := by
    rintro ⟨n, hsupply, hsupply', hnames⟩ hrun
    obtain ⟨hnone, -⟩ | ⟨i, hi, hname, hlookup⟩ := hnames name hopen
    · rw [hnone] at hsome
      cases hsome
    · have hrun' := DataTypes.returns_freeParam name s
      rw [run_varFor, hlookup] at hrun'
      obtain rfl : s = s' := congrArg Prod.snd (hrun'.symm.trans hrun)
      exact ⟨n, hsupply, hsupply', hnames⟩
  drawn {name p s t s'} kind arg hopen hnone := by
    rintro ⟨n, hsupply, hsupply', hnames⟩ hrun
    obtain ⟨-, hlookup⟩ | ⟨i, hi, hname, -⟩ := hnames name hopen
    · have hrun' := DataTypes.returns_freeParam name s
      rw [run_varFor, hlookup] at hrun'
      obtain rfl := congrArg Prod.snd (hrun'.symm.trans hrun)
      refine ⟨n + 1, by rw [Progress.draw, hsupply]; rfl, by dsimp only; rw [hsupply']; rfl,
        fun other hother => ?_⟩
      rw [Progress.naming_draw, hsupply, hsupply']
      by_cases heq : name = other
      · subst heq
        exact .inr ⟨n, n.lt_succ_self, if_pos rfl, by simp⟩
      · rw [if_neg heq, List.lookup_cons, beq_false_of_ne (Ne.symm heq)]
        exact (hnames other hother).imp_right fun ⟨i, hi, h⟩ => ⟨i, Nat.lt_succ_of_lt hi, h⟩
    · rw [hnone] at hname
      cases hname

/-- Sides that are level lead to each other by any renaming that takes the variables of one to those
of the other. -/
theorem Level.leads {u v : Supply} {p : Progress} {s : NamedVars} {n : Nat}
    (h : c.Level scope u v p s) (hn : p.supply = u.after n) {f : Int → Int}
    (hkept : ∀ name t, scope.lookup name = some (some t) → ∀ x ∈ t.freeOccurrences, f x = x)
    (hfresh : ∀ i < n, f (u.after i).next = (v.after i).next) :
    c.Leads scope (fun x => .var (f x)) p s.naming where
  kept name t ht := Ty.bind_eq_self fun x hx => congrArg _ (hkept name t ht x hx)
  got name t hopen ht := by
    obtain ⟨m, hm, -, hnames⟩ := h
    have hmn : m = n := by simpa [Supply.after] using hm.symm.trans hn
    obtain ⟨hnone, -⟩ | ⟨i, hi, hname, hlookup⟩ := hnames name hopen
    · rw [hnone] at ht
      cases ht
    · obtain rfl := Option.some.inj (hname.symm.trans ht)
      rw [NamedVars.naming, hlookup, Ty.bind, hfresh i (hmn ▸ hi)]
      rfl

theorem Shares.level (h : c.Shares p scope .empty) (u : Supply) :
    c.Level scope p.supply u p ⟨u, []⟩ := by
  refine ⟨0, rfl, rfl, fun name hopen => .inl ⟨?_, rfl⟩⟩
  cases hname : p.naming name with
  | none => rfl
  | some t => cases h.given_of_isOpen hopen hname

theorem build_as_resolved {r : Registry} (hdata : c.data = r.data)
    (hscope : scope.Binds (c.interface.params.map (·.name))) {e : TypeExpr} (hwhole : e.isWhole = true)
    (hnames : r.checkNames (c.interface.params.map (·.name)) e = .ok ()) (arg : Nat)
    (hint : ParamKind) (hshares : c.Shares p scope .empty) (u : Supply) :
    ∃ t p' t' s', Attempt.Returns (c.build .fresh arg hint e) p t p' ∧
      Attempt.Returns (r.data.resolve scope true e) ⟨u, []⟩ t' s' ∧ (u = p.supply → t' = t) ∧
      (p'.supply.Unwrapped → s'.supply.Unwrapped →
        (∀ x ∈ scope.vars, x < p.supply.next ∧ x < u.next) →
        ∃ ρ : Equiv.Perm Int, (∀ x ∈ scope.vars, ρ x = x) ∧ t' = t.bind fun x => .var (ρ x)) := by
  obtain ⟨t, p', t', s', hbuild, hresolve, hgoes, hleads⟩ :=
    build_beside DataTypes.remembers_freeParam (carries_level p.supply u) hdata hscope hwhole hnames
      arg hint hshares.abreast (hshares.level u)
  obtain ⟨n, hp', hs', -⟩ := hgoes.carried
  refine ⟨t, p', t', s', hbuild, (DataTypes.resolve_eq_resolveWith ..).symm ▸ hresolve, ?_, ?_⟩
  · rintro rfl
    rw [hleads _ (hgoes.carried.leads hp' (f := id) (fun _ _ _ _ _ => rfl) fun _ _ => rfl)]
    exact Ty.bind_var t
  · intro hunwrapped hunwrapped' hvars
    obtain ⟨ρ, hkept, hfresh⟩ := Supply.exists_perm (hp' ▸ hunwrapped) (hs' ▸ hunwrapped') hvars
    exact ⟨ρ, hkept, hleads _ (hgoes.carried.leads hp'
      (fun name u hu x hx => hkept x (Scope.mem_vars hu x hx)) hfresh)⟩

end Call

end Signature

open Signature

namespace Registry

/-- A type whose names are accepted is resolved in every scope with the same names, whatever free names
get, and no other type is resolved in any. What is accepted is built in every call, too. If the call
has bound the names as the scope does, what is built is what is resolved, once the variables of the
call stand for what the free names got; and if each of these gets a variable, the types are the same
but for the numbers of the new variables. -/
theorem checkNames_agrees_with_resolution (r : Registry) {e : TypeExpr} (hwhole : e.isWhole = true)
    {params : List String} {scope : Scope} (hscope : scope.Binds params) :
    (∀ {σ : Type} (free : FreeNames σ), free.NeverFails → ∀ s,
      (r.checkNames params e = .ok () ↔
        ∃ t s', Attempt.Returns (r.data.resolveWith scope (some free) e) s t s')) ∧
    (r.checkNames params e = .ok () →
      ∀ (c : Call) (p : Progress) (arg : Nat) (hint : ParamKind), c.data = r.data →
        c.interface.params.map (·.name) = params →
        (∀ {σ : Type} (free : FreeNames σ) (given : σ → Naming), free.Remembers given →
          ∀ s, c.Shares p scope (given s) →
          ∃ t p' t' s', Attempt.Returns (c.build .fresh arg hint e) p t p' ∧
            Attempt.Returns (r.data.resolveWith scope (some free) e) s t' s' ∧
            (∀ θ, c.Leads scope θ p' (given s') → t' = t.bind θ) ∧
            (p'.supply.Unwrapped → p.HandedOut → ∃ θ, c.Leads scope θ p' (given s'))) ∧
        (c.Shares p scope .empty → ∀ u,
          ∃ t p' t' s', Attempt.Returns (c.build .fresh arg hint e) p t p' ∧
            Attempt.Returns (r.data.resolve scope true e) ⟨u, []⟩ t' s' ∧
            (u = p.supply → t' = t) ∧
            (p'.supply.Unwrapped → s'.supply.Unwrapped →
              (∀ x ∈ scope.vars, x < p.supply.next ∧ x < u.next) →
              ∃ ρ : Equiv.Perm Int, (∀ x ∈ scope.vars, ρ x = x) ∧
                t' = t.bind fun x => .var (ρ x)))) := by
  refine ⟨fun free hfree s => checkNames_iff_resolves hfree hscope hwhole s, ?_⟩
  rintro hnames c p arg hint hdata rfl
  refine ⟨fun free given hfree s hshares => ?_, fun hshares u => ?_⟩
  · obtain ⟨t, p', t', s', hbuild, hresolve, hgoes, hleads⟩ :=
      Call.build_beside hfree (Call.carries_drew p) hdata hscope hwhole hnames arg hint hshares.abreast
        ⟨[], rfl, fun _ _ => .inl rfl⟩
    obtain ⟨names, hdrew⟩ := hgoes.carried
    exact ⟨t, p', t', s', hbuild, hresolve, hleads, fun hu hp =>
      ⟨_, hdrew.leads hu hp hshares hgoes.got hgoes.abreast⟩⟩
  · exact Call.build_as_resolved hdata hscope hwhole hnames arg hint hshares u

/-- The number of rows is a variable that is known already. -/
def rows : Scope := [("m", some (.var 0))]

/-- A call that has bound the number of rows and nothing else. -/
def stacking : Progress :=
  ⟨.startingAt 1, (∅ : SortedMap String ParamBinding).insert "m" ⟨.dimension, .var 0, 0⟩, []⟩

theorem lookup_rows (name : String) :
    rows.lookup name = if "m" = name then some (some (.var 0)) else none := by
  rw [rows, List.lookup_cons]
  split
  · rename_i hname
    rw [if_pos (eq_of_beq hname).symm]
  · rename_i hname
    rw [if_neg (ne_of_beq_false hname).symm, List.lookup_nil]

theorem shares_stacking (given : Naming) : (Call.stacked 3).Shares stacking rows given := by
  have hnaming : ∀ name, stacking.naming name = (rows.lookup name).join := by
    intro name
    rw [lookup_rows]
    simp only [stacking, Progress.naming, SortedMap.get?_insert, SortedMap.get?_empty]
    split
    · rfl
    · rfl
  constructor
  · intro name value hlookup
    rw [hnaming, hlookup]
    rfl
  · intro name t _ hlookup ht
    rw [hnaming, hlookup] at ht
    cases ht

theorem checkNames_agrees_with_resolution_stack :
    (∃ t s', Attempt.Returns (Call.matrices.data.resolveWith rows (some fun _ => pure .scalar)
      Call.stack.signature) () t s') ∧
    ∃ t t', (Attempt.outcome ((Call.stacked 3).build .fresh 0 .type Call.stack.signature)
        stacking).1 = .ok t ∧
      (Attempt.outcome (Call.matrices.data.resolve rows true Call.stack.signature)
        ⟨.startingAt 5, []⟩).1 = .ok t' ∧
      ∃ ρ : Equiv.Perm Int, ρ 0 = 0 ∧ t' = t.bind fun x => .var (ρ x) := by
  have hscope : rows.Binds ["m"] := fun name => by
    rw [lookup_rows, List.mem_singleton, @eq_comm _ name]
    split
    · rename_i hname
      simp [hname]
    · rename_i hname
      simp [hname]
  have hnames : Call.matrices.checkNames ["m"] Call.stack.signature = .ok () := rfl
  obtain ⟨hresolves, hbuilds⟩ := checkNames_agrees_with_resolution Call.matrices
    (e := Call.stack.signature) rfl hscope
  refine ⟨(hresolves (fun _ => pure .scalar) (fun _ _ => ⟨_, _, rfl⟩) ()).1 hnames, ?_⟩
  obtain ⟨t, p', t', s', hbuild, hresolve, -, hrenamed⟩ :=
    (hbuilds hnames (Call.stacked 3) stacking 0 .type rfl rfl).2 (shares_stacking _) (.startingAt 5)
  have hsupply : (Attempt.outcome ((Call.stacked 3).build .fresh 0 .type Call.stack.signature)
      stacking).2.supply = ⟨1, 3, 0⟩ := rfl
  have hsupply' : (Attempt.outcome (Call.matrices.data.resolve rows true
      Call.stack.signature) ⟨.startingAt 5, []⟩).2.supply = ⟨5, 3, 0⟩ := rfl
  rw [hbuild] at hsupply
  rw [hresolve] at hsupply'
  obtain ⟨ρ, hρ, hrenamed⟩ := hrenamed (by rw [hsupply]; decide) (by rw [hsupply']; decide)
    (by decide)
  exact ⟨t, t', congrArg Prod.fst hbuild, congrArg Prod.fst hresolve, ρ, hρ 0 (by decide), hrenamed⟩

end Registry

end Formulary
