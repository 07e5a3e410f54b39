import Formulary.Proofs.Solutions

/-!
The rules of typing, apart from how types are found. A constant is a scalar; a name has an instance
of the scheme it is given; a constructor or a function takes arguments of just the types of its
instance; the cases of a match have one type, and what a pattern binds is known in its case only.
Names that nothing declares have the types that a naming gives them.
-/

namespace Formulary

/-- A monotype that a scheme holds for. -/
def Ty.Instance (scheme t : Ty) : Prop :=
  ∃ ρ : Valuation, ρ.IsMono ∧ (∀ x, x ∉ scheme.unquantify.1 → ρ x = .var x) ∧
    t = scheme.unquantify.2.bind ρ

theorem Ty.instance_iff_eq {s t : Ty} (h : s.isMono = true) : s.Instance t ↔ t = s := by
  have hparts := unquantify_of_isMono h
  constructor
  · rintro ⟨ρ, -, hother, rfl⟩
    rw [hparts] at hother ⊢
    exact bind_eq_self fun x _ => hother x List.not_mem_nil
  · rintro rfl
    refine ⟨.var, fun _ => rfl, fun _ _ => rfl, ?_⟩
    rw [hparts, bind_var]

theorem Ty.Instance.isMono {s t : Ty} (h : s.Instance t) (hs : s.unquantify.2.isMono = true) :
    t.isMono = true := by
  obtain ⟨ρ, hρ, -, rfl⟩ := h
  exact isMono_bind hs fun x _ => hρ x

namespace DataTypes

/-- Whether a type is an instance of a data type that the source declares. -/
def isDeclared : Ty → Bool
  | .data name _ _ => name ≠ Ty.metaName
  | _ => false

/-- The types that a field of a variant of the type of types may have. -/
def FieldOfMeta (r : DataTypes) (f : Field) (t : Ty) : Prop :=
  ∃ declared, r.resolveClosed [] f.type = .ok declared ∧
    if isDeclared declared then t = declared else t.isMono = true

/-- The scope of the fields of a data type whose parameters stand for some types. -/
def scopeOf (d : DataType) (params : List Ty) : Scope := d.params.zip (params.map some)

/-- A constructor builds values of a type from fields of some types. -/
inductive Builds (r : DataTypes) (name : String) : List Ty → Ty → Prop
  | ofMeta {d : DataType} {v : Variant} {ts : List Ty} (hvariant : r.variant? name = some (d, v))
      (howner : d.name = Ty.metaName) (hfields : List.Forall₂ r.FieldOfMeta v.fields ts) :
      Builds r name ts (.variant name ts)
  | ofData {d : DataType} {v : Variant} {params ts : List Ty}
      (hvariant : r.variant? name = some (d, v)) (howner : d.name ≠ Ty.metaName)
      (hlength : params.length = d.params.length) (hmono : ∀ t ∈ params, t.isMono = true)
      (hfields : List.Forall₂ (fun f t => r.resolveClosed (scopeOf d params) f.type = .ok t)
        v.fields ts) : Builds r name ts (.instanceOf d.name params)

section

variable {r : DataTypes} {name : String} {d : DataType} {v : Variant} {ts : List Ty} {t : Ty}

theorem builds_iff_of_meta (hvariant : r.variant? name = some (d, v))
    (howner : d.name = Ty.metaName) :
    r.Builds name ts t ↔ List.Forall₂ r.FieldOfMeta v.fields ts ∧ t = .variant name ts := by
  constructor
  · intro h
    cases h with
    | ofMeta hvariant' _ hfields =>
        cases hvariant.symm.trans hvariant'
        exact ⟨hfields, rfl⟩
    | ofData hvariant' howner' =>
        cases hvariant.symm.trans hvariant'
        exact absurd howner howner'
  · rintro ⟨hfields, rfl⟩
    exact .ofMeta hvariant howner hfields

theorem builds_iff_of_data (hvariant : r.variant? name = some (d, v))
    (howner : d.name ≠ Ty.metaName) :
    r.Builds name ts t ↔ ∃ params, params.length = d.params.length ∧
      (∀ t ∈ params, t.isMono = true) ∧
      List.Forall₂ (fun f t => r.resolveClosed (scopeOf d params) f.type = .ok t) v.fields ts ∧
      t = .instanceOf d.name params := by
  constructor
  · intro h
    cases h with
    | ofMeta hvariant' howner' =>
        cases hvariant.symm.trans hvariant'
        exact absurd howner' howner
    | ofData hvariant' _ hlength hmono hfields =>
        cases hvariant.symm.trans hvariant'
        exact ⟨_, hlength, hmono, hfields, rfl⟩
  · rintro ⟨params, hlength, hmono, hfields, rfl⟩
    exact .ofData hvariant howner hlength hmono hfields

theorem Builds.ne_none (h : r.Builds name ts t) : r.variant? name ≠ none := by
  cases h with
  | ofMeta hvariant => simp [hvariant]
  | ofData hvariant => simp [hvariant]

theorem Builds.variant_of_nil (h : r.Builds name [] t) :
    ∃ d written, r.variant? name = some (d, ⟨written, []⟩) := by
  cases h with
  | @ofMeta d v _ hvariant _ hfields =>
      rcases v with ⟨written, fields⟩
      cases hfields
      exact ⟨d, written, hvariant⟩
  | @ofData d v _ _ hvariant _ _ _ hfields =>
      rcases v with ⟨written, fields⟩
      cases hfields
      exact ⟨d, written, hvariant⟩

end

/-- Whether a name is that of a variant of a data type other than the type of types, with no field
that stands for a dimension or a tag. -/
def isPlain (r : DataTypes) (name : String) : Bool :=
  match r.variant? name with
  | some (d, v) => d.name ≠ Ty.metaName && v.fields.all fun f =>
      match r.resolveClosed (d.params.map fun p => (p, some (.var 0))) f.type with
      | .ok t => t.paramKind = .type
      | .error _ => false
  | none => false

end DataTypes

/-- No name has a type. -/
def Naming.empty : Naming := fun _ => none

/-- Names have the types they are given in the second place, or else in the first. -/
def Naming.over (Γ B : Naming) : Naming := fun name => (B name).or (Γ name)

def Naming.IsMono (Γ : Naming) : Prop := ∀ name t, Γ name = some t → t.isMono = true

/-- The types of an environment, under a valuation. -/
def TypeEnv.under (env : TypeEnv) (θ : Valuation) : Naming := fun name =>
  (env.get? name).map (·.bind θ)

theorem TypeEnv.under_insert (env : TypeEnv) (name : String) (t : Ty) (θ : Valuation) :
    TypeEnv.under (env.insert name t) θ = Function.update (env.under θ) name (some (t.bind θ)) := by
  funext other
  rw [TypeEnv.under, SortedMap.get?_insert, Function.update_apply]
  by_cases h : name = other
  · rw [if_pos h, if_pos h.symm]
    rfl
  · rw [if_neg h, if_neg (Ne.symm h)]
    rfl

theorem TypeEnv.get?_extend (env bindings : TypeEnv) (name : String) :
    (env.extend bindings.entries).get? name = (bindings.get? name).or (env.get? name) := by
  rw [extend]
  cases hget : bindings.get? name with
  | some t =>
      rw [SortedMap.get?_insertAll_of_mem bindings.distinct
        ((SortedMap.get?_eq_some_iff _ _ _).1 hget), Option.some_or]
  | none =>
      rw [SortedMap.get?_insertAll_of_notMem, Option.none_or]
      rintro ⟨other, t⟩ he rfl
      rw [(SortedMap.get?_eq_some_iff _ _ _).2 he] at hget
      cases hget

theorem TypeEnv.under_extend (env bindings : TypeEnv) (θ : Valuation) :
    (env.extend bindings.entries).under θ = (env.under θ).over (bindings.under θ) := by
  funext name
  rw [under, get?_extend, Naming.over, under, under]
  cases bindings.get? name <;> rfl

theorem TypeEnv.under_congr {env : TypeEnv} {θ θ' : Valuation}
    (h : ∀ name t, env.get? name = some t → t.bind θ = t.bind θ') : env.under θ = env.under θ' := by
  funext name
  rw [under, under]
  cases hget : env.get? name with
  | none => rfl
  | some t => rw [Option.map_some, Option.map_some, h name t hget]

namespace Pattern

mutual

/-- A pattern is one for values of a type. It adds what it binds to what the patterns to its left
have bound. -/
inductive Fits (r : DataTypes) : Naming → Pattern → Ty → Naming → Prop
  | wildcard {B : Naming} {t : Ty} : Fits r B .wildcard t B
  | var {B : Naming} {name : String} {t : Ty} (hnew : B name = none) :
      Fits r B (.var name) t (Function.update B name (some t))
  | const {B : Naming} {value : String} : Fits r B (.const value) .scalar B
  | constructor {B B' : Naming} {name : String} {args : List Pattern} {ts : List Ty} {t : Ty}
      (hbuilds : r.Builds name ts t) (hargs : FitsList r B args ts B') :
      Fits r B (.constructor name args) t B'

inductive FitsList (r : DataTypes) : Naming → List Pattern → List Ty → Naming → Prop
  | nil {B : Naming} : FitsList r B [] [] B
  | cons {B B' B'' : Naming} {p : Pattern} {ps : List Pattern} {t : Ty} {ts : List Ty}
      (hp : Fits r B p t B') (hps : FitsList r B' ps ts B'') : FitsList r B (p :: ps) (t :: ts) B''

end

end Pattern

/-- Whether a name on its own is neither a constructor nor an operation without arguments. -/
def Registry.isOpen (r : Registry) (name : String) : Bool :=
  match r.data.variant? name, r.operation? name with
  | some (_, ⟨_, []⟩), _ => false
  | _, some (_, op) => !op.signature.splitArrow.1.isEmpty
  | _, none => true

theorem Registry.isEmpty_of_isOpen {r : Registry} {name : String} {s : Structure} {op : Operation}
    (h : r.isOpen name = true) (hop : r.operation? name = some (s, op)) :
    op.signature.splitArrow.1.isEmpty = false := by
  unfold isOpen at h
  split at h
  · cases h
  · rename_i hop' _
    cases hop.symm.trans hop'
    simpa using h
  · rename_i hop' _
    cases hop.symm.trans hop'

mutual

/-- An expression has a type where names are given the types of `Γ`, and names that nothing declares
those of `D`. -/
inductive HasType (r : Registry) (D : Naming) : Naming → Expr → Ty → Prop
  | const {Γ : Naming} {value : String} : HasType r D Γ (.const value) .scalar
  | bound {Γ : Naming} {name : String} {scheme t : Ty} (hname : Γ name = some scheme)
      (hinstance : scheme.Instance t) : HasType r D Γ (.object name) t
  | constructor {Γ : Naming} {name : String} {t : Ty} (hname : Γ name = none)
      (hbuilds : r.data.Builds name [] t) : HasType r D Γ (.object name) t
  | free {Γ : Naming} {name : String} {t : Ty} (hname : Γ name = none) (hopen : r.isOpen name = true)
      (hfree : D name = some t) : HasType r D Γ (.object name) t
  | construction {Γ : Naming} {name : String} {args : List Expr} {ts : List Ty} {t : Ty}
      (hargs : HasTypes r D Γ args ts) (hbuilds : r.data.Builds name ts t) :
      HasType r D Γ (.operation name args) t
  | call {Γ : Naming} {name : String} {args : List Expr} {scheme : Ty} {ts : List Ty} {t : Ty}
      (hname : r.data.variant? name = none) (hbound : Γ name = some scheme)
      (hargs : HasTypes r D Γ args ts) (hinstance : scheme.Instance (Ty.curry ts t)) :
      HasType r D Γ (.operation name args) t
  | matching {Γ : Naming} {scrutinee : Expr} {cases : List (Pattern × Expr)} {s t : Ty}
      (hscrutinee : HasType r D Γ scrutinee s) (hsome : cases ≠ []) (hcases : HasCases r D Γ s cases t) :
      HasType r D Γ (.matching scrutinee cases) t

inductive HasTypes (r : Registry) (D : Naming) : Naming → List Expr → List Ty → Prop
  | nil {Γ : Naming} : HasTypes r D Γ [] []
  | cons {Γ : Naming} {e : Expr} {es : List Expr} {t : Ty} {ts : List Ty} (he : HasType r D Γ e t)
      (hes : HasTypes r D Γ es ts) : HasTypes r D Γ (e :: es) (t :: ts)

/-- Cases for values of a type all have a type. -/
inductive HasCases (r : Registry) (D : Naming) : Naming → Ty → List (Pattern × Expr) → Ty → Prop
  | nil {Γ : Naming} {s t : Ty} : HasCases r D Γ s [] t
  | cons {Γ B : Naming} {s t : Ty} {p : Pattern} {body : Expr} {cases : List (Pattern × Expr)}
      (hp : p.Fits r.data .empty s B) (hbody : HasType r D (Γ.over B) body t)
      (hcases : HasCases r D Γ s cases t) : HasCases r D Γ s ((p, body) :: cases) t

end

namespace Expr

mutual

/-- Whether an expression is of the core of the language, where `known` tells the names that have a
scheme: constants and names; constructors of data types without static fields; calls of what has a
scheme; and matches. -/
def isCore (r : Registry) (known : String → Bool) : Expr → Bool
  | .blank => false
  | .const _ => true
  | .object name => known name ||
    match r.data.variant? name, r.operation? name with
    | some (d, ⟨_, []⟩), _ => d.name ≠ Ty.metaName
    | _, some (_, op) => !op.signature.splitArrow.1.isEmpty
    | _, none => true
  | .operation name args =>
    (if (r.data.variant? name).isSome then r.data.isPlain name else known name) &&
      isCoreList r known args
  | .matching scrutinee cases => scrutinee.isCore r known && isCoreCases r known cases

def isCoreList (r : Registry) (known : String → Bool) : List Expr → Bool
  | [] => true
  | e :: es => e.isCore r known && isCoreList r known es

def isCoreCases (r : Registry) (known : String → Bool) : List (Pattern × Expr) → Bool
  | [] => true
  | (p, body) :: rest =>
    body.isCore r (fun name => p.vars.contains name || known name) && isCoreCases r known rest

end

theorem isCore_of_isOpen {r : Registry} {known : String → Bool} {name : String}
    (h : r.isOpen name = true) : (Expr.object name).isCore r known = true := by
  rw [isCore, Bool.or_eq_true]
  refine .inr ?_
  unfold Registry.isOpen at h
  split at h
  · cases h
  · exact h
  · rfl

theorem isOpen_or_of_isCore {r : Registry} {known : String → Bool} {name : String}
    (h : (Expr.object name).isCore r known = true) (hknown : known name = false) :
    r.isOpen name = true ∨
      ∃ d written, r.data.variant? name = some (d, ⟨written, []⟩) ∧ d.name ≠ Ty.metaName := by
  simp only [isCore, hknown, Bool.false_or] at h
  unfold Registry.isOpen
  split at h
  · rename_i d written hvariant
    exact .inr ⟨d, written, hvariant, of_decide_eq_true h⟩
  · exact .inl h
  · exact .inl rfl

mutual

theorem isWhole_of_isCore {r : Registry} {known : String → Bool} {e : Expr}
    (h : e.isCore r known = true) : e.isWhole = true := by
  cases e with
  | blank => cases h
  | const value => rfl
  | object name => rfl
  | operation name args =>
      rw [isCore, Bool.and_eq_true] at h
      exact isWholeList_of_isCoreList h.2
  | matching scrutinee cases =>
      rw [isCore, Bool.and_eq_true] at h
      rw [isWhole, Bool.and_eq_true]
      exact ⟨isWhole_of_isCore h.1, isWholeCases_of_isCoreCases h.2⟩

theorem isWholeList_of_isCoreList {r : Registry} {known : String → Bool} {es : List Expr}
    (h : isCoreList r known es = true) : isWholeList es = true := by
  cases es with
  | nil => rfl
  | cons e es =>
      rw [isCoreList, Bool.and_eq_true] at h
      rw [isWholeList, Bool.and_eq_true]
      exact ⟨isWhole_of_isCore h.1, isWholeList_of_isCoreList h.2⟩

theorem isWholeCases_of_isCoreCases {r : Registry} {known : String → Bool}
    {cases : List (Pattern × Expr)} (h : isCoreCases r known cases = true) :
    isWholeCases cases = true := by
  match cases with
  | [] => rfl
  | (p, body) :: rest =>
      rw [isCoreCases, Bool.and_eq_true] at h
      rw [isWholeCases, Bool.and_eq_true]
      exact ⟨isWhole_of_isCore h.1, isWholeCases_of_isCoreCases h.2⟩

end

end Expr

end Formulary
