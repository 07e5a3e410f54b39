import Formulary.Proofs.ExactMatching

namespace Formulary

/-- How a name that has no type gets one, by steps on a state of their own. -/
abbrev FreeNames (σ : Type) := String → Attempt σ Fault Ty

namespace FreeNames

variable {σ : Type}

def NeverFails (free : FreeNames σ) : Prop :=
  ∀ name s, ∃ t s', Attempt.Returns (free name) s t s'

/-- A name gets the same type every time. The state knows what each name has got so far. -/
def Remembers (free : FreeNames σ) (given : σ → Naming) : Prop :=
  ∀ name s, ∃ t s', Attempt.Returns (free name) s t s' ∧ given s' name = some t ∧
    (given s').Extends (given s)

end FreeNames

/-- The variables that names have got. -/
def NamedVars.naming (s : NamedVars) : Naming := fun name => (s.vars.lookup name).map .var

/-- A scope has just some names, each with a type or without. -/
def Scope.Binds (scope : Scope) (params : List String) : Prop :=
  ∀ name, (scope.lookup name).isSome ↔ name ∈ params

/-- The variables in the types of a scope. -/
def Scope.vars (scope : Scope) : List Int :=
  scope.flatMap fun b => Ty.freeOccurrencesList b.2.toList

theorem Scope.mem_vars {scope : Scope} {name : String} {t : Ty}
    (h : scope.lookup name = some (some t)) : ∀ x ∈ t.freeOccurrences, x ∈ scope.vars := by
  intro x hx
  obtain ⟨before, after, hscope, -⟩ := List.lookup_eq_some_iff.1 h
  refine List.mem_flatMap.2 ⟨(name, some t), by simp [hscope], ?_⟩
  exact Ty.mem_freeOccurrencesList.2 ⟨t, List.mem_singleton_self t, hx⟩

namespace DataTypes

variable {r : DataTypes} {scope : Scope}

section

variable {σ : Type}

mutual

/-- The type that a type expression stands for, when free names get their types in any way. Without
one they are refused. -/
def resolveWith (r : DataTypes) (scope : Scope) (free : Option (FreeNames σ)) :
    TypeExpr → Attempt σ Fault Ty
  | .blank => throw (.blankType none)
  | .named name =>
    match scope.lookup name with
    | some (some t) => return t
    | some none =>
      match free with
      | some give => give name
      | none => throw (.unresolvedParam name)
    | none =>
      match r.lookupName? name with
      | some t => return t
      | none =>
        match free with
        | some give => if isParamName name then give name else throw (r.unknownType name)
        | none => throw (r.unknownType name)
  | .app name args => do r.applyName name (← resolveWithList r scope free args)
  | .arrow domain codomain => do
    return .fn (← resolveWith r scope free domain) (← resolveWith r scope free codomain)
  | .nat value => return .nat value
  | .tag value => return .tag value

def resolveWithList (r : DataTypes) (scope : Scope) (free : Option (FreeNames σ)) :
    List TypeExpr → Attempt σ Fault (List Ty)
  | [] => return []
  | e :: es => do
    return (← resolveWith r scope free e) :: (← resolveWithList r scope free es)

end

end

mutual

theorem resolve_eq_resolveWith (r : DataTypes) (scope : Scope) (free : Bool) (e : TypeExpr) :
    r.resolve scope free e = r.resolveWith scope (if free then some freeParam else none) e := by
  cases e with
  | blank | nat | tag => rfl
  | named name =>
      cases free with
      | true =>
          rw [if_pos rfl, resolve, resolveWith]
          rfl
      | false =>
          rw [if_neg Bool.false_ne_true, resolve, resolveWith]
          rfl
  | app name args => rw [resolve, resolveWith, resolveList_eq_resolveWithList]
  | arrow domain codomain =>
      rw [resolve, resolveWith, resolve_eq_resolveWith r scope free domain,
        resolve_eq_resolveWith r scope free codomain]

theorem resolveList_eq_resolveWithList (r : DataTypes) (scope : Scope) (free : Bool)
    (es : List TypeExpr) : r.resolveList scope free es =
      r.resolveWithList scope (if free then some freeParam else none) es := by
  match es with
  | [] => rfl
  | e :: es =>
      rw [resolveList, resolveWithList, resolve_eq_resolveWith r scope free e,
        resolveList_eq_resolveWithList r scope free es]

end

theorem returns_freeParam (name : String) (s : NamedVars) :
    Attempt.Returns (freeParam name) s (.var ((NamedVars.varFor name).run s).1)
      ((NamedVars.varFor name).run s).2 := rfl

theorem remembers_freeParam : FreeNames.Remembers freeParam NamedVars.naming := by
  intro name s
  refine ⟨_, _, returns_freeParam name s, ?_⟩
  rw [run_varFor]
  cases hlookup : s.vars.lookup name with
  | some id => exact ⟨by rw [NamedVars.naming, hlookup]; rfl, fun _ _ h => h⟩
  | none =>
      refine ⟨by simp [NamedVars.naming], fun other t ht => ?_⟩
      obtain ⟨id, hid, rfl⟩ := Option.map_eq_some_iff.1 ht
      have hother : other ≠ name := by
        rintro rfl
        rw [hlookup] at hid
        cases hid
      rw [NamedVars.naming, List.lookup_cons, beq_false_of_ne hother, hid]
      rfl

theorem exists_applyName_iff {name : String} {ts : List Ty} :
    (∃ t, r.applyName name ts = .ok t) ↔
      ∃ kinds, r.fieldKinds? name = some kinds ∧ kinds.length = ts.length := by
  constructor
  · rintro ⟨t, ht⟩
    unfold applyName at ht
    unfold fieldKinds?
    cases hdata : r.find? name with
    | some d =>
        simp only [hdata] at ht
        split at ht
        · rename_i hlength
          exact ⟨_, rfl, by rw [List.length_map, hlength]⟩
        · cases ht
    | none =>
        simp only [hdata] at ht
        cases hvariant : r.metaVariant? name with
        | some v =>
            simp only [hvariant] at ht
            split at ht
            · rename_i hlength
              exact ⟨_, rfl, by rw [List.length_map, hlength]⟩
            · cases ht
        | none =>
            simp only [hvariant] at ht
            cases ht
  · rintro ⟨kinds, hkinds, hlength⟩
    exact exists_applyName_of_fieldKinds? hkinds hlength

theorem length_of_resolveWithList {σ : Type} {free : Option (FreeNames σ)} {es : List TypeExpr}
    {ts : List Ty} {s s' : σ} (h : Attempt.Returns (r.resolveWithList scope free es) s ts s') :
    ts.length = es.length := by
  induction es generalizing s ts with
  | nil =>
      cases h
      rfl
  | cons e es ih =>
      rw [resolveWithList] at h
      obtain ⟨t, s₁, -, h⟩ := Attempt.returns_bind_iff.1 h
      obtain ⟨us, s₂, hrest, h⟩ := Attempt.returns_bind_iff.1 h
      cases h
      rw [List.length_cons, List.length_cons, ih hrest]

end DataTypes

namespace Registry

variable {r : Registry} {params : List String}

theorem checkNames_named_iff {name : String} :
    r.checkNames params (.named name) = .ok () ↔
      name ∈ params ∨ isParamName name = true ∨ (r.data.lookupName? name).isSome = true := by
  rw [checkNames]
  split
  · rename_i haccepted
    simpa [or_assoc] using haccepted
  · rename_i hrefused
    simpa [or_assoc] using hrefused

theorem checkNames_app_iff {name : String} {args : List TypeExpr} :
    r.checkNames params (.app name args) = .ok () ↔
      (∃ kinds, r.data.fieldKinds? name = some kinds ∧ kinds.length = args.length) ∧
        r.checkNamesList params args = .ok () := by
  rw [checkNames]
  cases r.data.fieldKinds? name with
  | none => simp
  | some kinds =>
      dsimp only
      split
      · rename_i hlength
        simp [hlength]
      · rename_i hlength
        simp [hlength]

theorem checkNames_arrow_iff {domain codomain : TypeExpr} :
    r.checkNames params (.arrow domain codomain) = .ok () ↔
      r.checkNames params domain = .ok () ∧ r.checkNames params codomain = .ok () := by
  rw [checkNames, Except.bind_eq_ok_iff]
  exact ⟨fun ⟨_, ha, hb⟩ => ⟨ha, hb⟩, fun ⟨ha, hb⟩ => ⟨(), ha, hb⟩⟩

theorem checkNamesList_cons_iff {e : TypeExpr} {es : List TypeExpr} :
    r.checkNamesList params (e :: es) = .ok () ↔
      r.checkNames params e = .ok () ∧ r.checkNamesList params es = .ok () := by
  rw [checkNamesList, Except.bind_eq_ok_iff]
  exact ⟨fun ⟨_, ha, hb⟩ => ⟨ha, hb⟩, fun ⟨ha, hb⟩ => ⟨(), ha, hb⟩⟩

section

variable {σ : Type} {free : FreeNames σ} {scope : Scope}

mutual

theorem checkNames_iff_resolves (hfree : free.NeverFails) (hscope : scope.Binds params)
    {e : TypeExpr} (hwhole : e.isWhole = true) (s : σ) :
    r.checkNames params e = .ok () ↔
      ∃ t s', Attempt.Returns (r.data.resolveWith scope (some free) e) s t s' := by
  cases e with
  | blank => cases hwhole
  | named name =>
      rw [checkNames_named_iff, ← hscope name, DataTypes.resolveWith]
      cases scope.lookup name with
      | some value =>
          refine iff_of_true (.inl rfl) ?_
          cases value with
          | some t => exact ⟨t, s, rfl⟩
          | none => exact hfree name s
      | none =>
          cases r.data.lookupName? name with
          | some t => exact iff_of_true (.inr (.inr rfl)) ⟨t, s, rfl⟩
          | none =>
              dsimp only
              split
              · rename_i hlower
                exact iff_of_true (.inr (.inl hlower)) (hfree name s)
              · rename_i hlower
                refine iff_of_false (by simpa using hlower) ?_
                rintro ⟨t, s', hrun⟩
                cases hrun
  | app name args =>
      rw [checkNames_app_iff, checkNamesList_iff_resolves hfree hscope hwhole s,
        DataTypes.resolveWith]
      simp only [Attempt.returns_bind_iff]
      constructor
      · rintro ⟨⟨kinds, hkinds, hlength⟩, ts, s₁, hargs⟩
        obtain ⟨t, ht⟩ := DataTypes.exists_applyName_iff.2
          ⟨kinds, hkinds, hlength.trans (DataTypes.length_of_resolveWithList hargs).symm⟩
        exact ⟨t, s₁, ts, s₁, hargs, by rw [ht]; rfl⟩
      · rintro ⟨t, s', ts, s₁, hargs, hname⟩
        rw [Attempt.Returns, Attempt.outcome_liftExcept, Prod.mk.injEq] at hname
        obtain ⟨kinds, hkinds, hlength⟩ := DataTypes.exists_applyName_iff.1 ⟨t, hname.1⟩
        exact ⟨⟨kinds, hkinds, hlength.trans (DataTypes.length_of_resolveWithList hargs)⟩,
          ts, s₁, hargs⟩
  | arrow domain codomain =>
      obtain ⟨hdomain, hcodomain⟩ := Bool.and_eq_true_iff.1 hwhole
      have ha := fun s => checkNames_iff_resolves hfree hscope hdomain s
      have hb := fun s => checkNames_iff_resolves hfree hscope hcodomain s
      rw [checkNames_arrow_iff, DataTypes.resolveWith]
      constructor
      · rintro ⟨haccepted, haccepted'⟩
        obtain ⟨a, s₁, hruna⟩ := (ha s).1 haccepted
        obtain ⟨b, s₂, hrunb⟩ := (hb s₁).1 haccepted'
        exact ⟨_, s₂, Attempt.returns_bind_iff.2 ⟨a, s₁, hruna,
          Attempt.returns_bind_iff.2 ⟨b, s₂, hrunb, rfl⟩⟩⟩
      · rintro ⟨t, s', hrun⟩
        obtain ⟨a, s₁, hruna, hrun⟩ := Attempt.returns_bind_iff.1 hrun
        obtain ⟨b, s₂, hrunb, -⟩ := Attempt.returns_bind_iff.1 hrun
        exact ⟨(ha s).2 ⟨a, s₁, hruna⟩, (hb s₁).2 ⟨b, s₂, hrunb⟩⟩
  | nat value => exact iff_of_true rfl ⟨_, s, rfl⟩
  | tag value => exact iff_of_true rfl ⟨_, s, rfl⟩

theorem checkNamesList_iff_resolves (hfree : free.NeverFails) (hscope : scope.Binds params)
    {es : List TypeExpr} (hwhole : TypeExpr.isWholeList es = true) (s : σ) :
    r.checkNamesList params es = .ok () ↔
      ∃ ts s', Attempt.Returns (r.data.resolveWithList scope (some free) es) s ts s' := by
  match es with
  | [] => exact iff_of_true rfl ⟨_, s, rfl⟩
  | e :: es =>
      obtain ⟨hfirst, hrest⟩ := Bool.and_eq_true_iff.1 hwhole
      have he := fun s => checkNames_iff_resolves hfree hscope hfirst s
      have hes := fun s => checkNamesList_iff_resolves hfree hscope hrest s
      rw [checkNamesList_cons_iff, DataTypes.resolveWithList]
      constructor
      · rintro ⟨haccepted, haccepted'⟩
        obtain ⟨t, s₁, hrun⟩ := (he s).1 haccepted
        obtain ⟨us, s₂, hruns⟩ := (hes s₁).1 haccepted'
        exact ⟨_, s₂, Attempt.returns_bind_iff.2 ⟨t, s₁, hrun,
          Attempt.returns_bind_iff.2 ⟨us, s₂, hruns, rfl⟩⟩⟩
      · rintro ⟨ts, s', hrun⟩
        obtain ⟨t, s₁, hfirst, hrun⟩ := Attempt.returns_bind_iff.1 hrun
        obtain ⟨us, s₂, hrest, -⟩ := Attempt.returns_bind_iff.1 hrun
        exact ⟨(he s).2 ⟨t, s₁, hfirst⟩, (hes s₁).2 ⟨us, s₂, hrest⟩⟩

end

end

end Registry

end Formulary
