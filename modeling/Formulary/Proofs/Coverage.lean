import Formulary.Proofs.Reachability
import Formulary.Proofs.Registering

/-!
On ground types usefulness is exact. There every query stands for a set of values, and each step of
the decision splits this set by the constructor or the literal in the first column: a query is useful
just when some value that it matches is matched by no row.
-/

namespace Formulary

namespace DataTypes

/-- A type is an instance of a declared data type, the type of types apart. -/
def IsInstance (r : DataTypes) (t : Ty) : Prop :=
  ∃ d ∈ r.types, d.name ≠ Ty.metaName ∧
    ∃ params : List Ty, params.length = d.params.length ∧ t = .instanceOf d.name params

variable {r : DataTypes}

theorem not_isInstance_scalar : ¬r.IsInstance .scalar := by
  rintro ⟨d, -, howner, params, -, heq⟩
  exact howner (Ty.data.inj heq).1.symm

theorem isInstance_of_builds {name : String} {ts : List Ty} {t : Ty} (h : r.Builds name ts t)
    (hname : r.metaVariant? name = none) : r.IsInstance t := by
  cases h with
  | ofMeta hvariant howner =>
      rw [metaVariant?, hvariant] at hname
      simp [howner] at hname
  | ofData hvariant howner hlength =>
      exact ⟨_, (mem_of_variant? hvariant).1, howner, _, hlength, rfl⟩

theorem eq_of_forall₂_ok {ε α β : Type} {f : α → Except ε β} {l : List α} {bs bs' : List β}
    (h : List.Forall₂ (fun a b => f a = .ok b) l bs)
    (h' : List.Forall₂ (fun a b => f a = .ok b) l bs') : bs = bs' := by
  induction h generalizing bs' with
  | nil =>
      cases h'
      rfl
  | cons hb _ ih =>
      cases h' with
      | cons hb' hbs' => rw [Except.ok.inj (hb.symm.trans hb'), ih hbs']

/-- The types of the fields are determined by what is built. -/
theorem Builds.fields_unique {name : String} {ts ts' : List Ty} {t : Ty} (h : r.Builds name ts t)
    (h' : r.Builds name ts' t) : ts = ts' := by
  cases h with
  | ofMeta hvariant howner =>
      obtain ⟨-, heq⟩ := (builds_iff_of_meta hvariant howner).1 h'
      exact (Ty.data.inj heq).2.2
  | ofData hvariant howner _ _ hfields =>
      obtain ⟨params, -, -, hfields', heq⟩ := (builds_iff_of_data hvariant howner).1 h'
      obtain rfl := (Ty.data.inj heq).2.2
      exact eq_of_forall₂_ok hfields hfields'

theorem Builds.fields_ground (hr : r.isWhole = true) {name : String} {ts : List Ty} {t : Ty}
    (h : r.Builds name ts t) (ht : t.Within fun _ => False) :
    ∀ field ∈ ts, field.Within fun _ => False := by
  cases h with
  | ofMeta => exact Ty.within_data.1 ht
  | @ofData d v params _ hvariant howner hlength hmono hfields =>
      intro field hfield
      obtain ⟨f, hf, hresolved⟩ := exists_of_forall₂ hfields hfield
      have hscope : ∀ b ∈ scopeOf d params, ∀ u, b.2 = some u → u.Within fun _ => False := by
        intro b hb u hu
        obtain ⟨-, hmem⟩ := List.of_mem_zip hb
        obtain ⟨w, hw, hwu⟩ := List.mem_map.1 hmem
        obtain rfl := Option.some.inj (hwu.trans hu)
        exact Ty.within_data.1 ht w hw
      have hends := r.resolveClosed_ends (isWhole_of_variant? hr hvariant f hf) hscope
      rw [hresolved] at hends
      exact hends

theorem fieldTypes_of_ground (hr : r.isWhole = true) {name : String} {t : Ty} {u u' : Supply}
    {fields ts : List Ty} (hrun : (Pattern.fieldTypes r name t).run u = (fields, u'))
    (hu : u'.Unwrapped) (ht : t.Within fun _ => False) (hbuilds : r.Builds name ts t) :
    fields = ts := by
  have hfixed : ∀ f : Int → Ty, t.bind f = t := fun f =>
    Ty.bind_eq_self fun x hx => (ht.2 x hx).elim
  obtain ⟨v, s, hinstance, hscope, hunify, rfl, -⟩ := exists_variant_of_fieldTypes hr hrun hu
    (ht.imp fun _ h => h.elim) (θ := .var) (fun _ => rfl) ((hfixed .var).symm ▸ hbuilds)
  have hgeneral := Ty.unify_mostGeneral ht.1 hscope.1.1 hunify
  -- under the unifier the variant is one of the type itself
  obtain ⟨-, hsound⟩ := ((r.instantiate_finds name).finds u v u' hinstance trivial hu hr).sound
    s.image (fun _ => none) hgeneral.mono
  have hresult : v.result.bind s.image = t := by
    rw [← (unifies_cons.1 hgeneral.unifies).1, hfixed]
  rw [hresult] at hsound
  rw [← hsound.fields_unique hbuilds, List.map_map]
  exact List.map_congr_left fun f _ => Subst.apply_eq_bind s f.type

end DataTypes

mutual

/-- A value is one of a ground type. A scalar is any literal, and an instance of a data type is built
by a constructor from values of the types of its fields. What the values of other types are is given
by `other`. -/
inductive ValueOf (r : DataTypes) (other : Ty → Expr → Prop) : Expr → Ty → Prop
  | scalar {literal : String} : ValueOf r other (.const literal) .scalar
  | built {value : Expr} {name : String} {args : List Expr} {ts : List Ty} {t : Ty}
      (hbuilt : value.built? = some (name, args)) (hinstance : r.IsInstance t)
      (hbuilds : r.Builds name ts t) (hargs : ValuesOf r other args ts) : ValueOf r other value t
  | other {value : Expr} {t : Ty} (hscalar : t ≠ .scalar) (hinstance : ¬r.IsInstance t)
      (hvalue : other t value) : ValueOf r other value t

inductive ValuesOf (r : DataTypes) (other : Ty → Expr → Prop) : List Expr → List Ty → Prop
  | nil : ValuesOf r other [] []
  | cons {value : Expr} {values : List Expr} {t : Ty} {ts : List Ty} (hvalue : ValueOf r other value t)
      (hvalues : ValuesOf r other values ts) : ValuesOf r other (value :: values) (t :: ts)

end

/-- Every constructor builds some value of each ground instance of its data type, and there are
values of the other ground types. -/
structure Populated (r : DataTypes) (other : Ty → Expr → Prop) : Prop where
  constructor : ∀ d ∈ r.types, d.name ≠ Ty.metaName → ∀ v ∈ d.variants, ∀ params : List Ty,
    params.length = d.params.length → (∀ t ∈ params, t.Within fun _ => False) →
    ∃ value args, value.built? = some (v.name, args) ∧
      ValueOf r other value (.instanceOf d.name params)
  other : ∀ t : Ty, t.Within (fun _ => False) → t ≠ .scalar → ¬r.IsInstance t → ∃ value, other t value

section

variable {r : DataTypes} {other : Ty → Expr → Prop}

theorem ValueOf.exists_built {value : Expr} {t : Ty} (h : ValueOf r other value t)
    (ht : r.IsInstance t) : ∃ name args ts, value.built? = some (name, args) ∧ r.Builds name ts t ∧
      ValuesOf r other args ts := by
  cases h with
  | scalar => exact absurd ht DataTypes.not_isInstance_scalar
  | built hbuilt _ hbuilds hargs => exact ⟨_, _, _, hbuilt, hbuilds, hargs⟩
  | other _ hinstance => exact absurd ht hinstance

theorem ValueOf.valuesOf_args {value : Expr} {t : Ty} {name : String} {args : List Expr} {ts : List Ty}
    (h : ValueOf r other value t) (ht : r.IsInstance t) (hbuilt : value.built? = some (name, args))
    (hbuilds : r.Builds name ts t) : ValuesOf r other args ts := by
  obtain ⟨name', args', ts', hbuilt', hbuilds', hargs⟩ := h.exists_built ht
  cases hbuilt.symm.trans hbuilt'
  rwa [hbuilds.fields_unique hbuilds']

theorem ValuesOf.length_eq {values : List Expr} {ts : List Ty} (h : ValuesOf r other values ts) :
    values.length = ts.length := by
  induction values generalizing ts with
  | nil =>
      cases h
      rfl
  | cons value values ih =>
      cases h with
      | cons _ hvalues => rw [List.length_cons, List.length_cons, ih hvalues]

theorem valuesOf_append {values : List Expr} {ts us : List Ty} :
    ValuesOf r other values (ts ++ us) ↔ ∃ front back, values = front ++ back ∧
      ValuesOf r other front ts ∧ ValuesOf r other back us := by
  induction ts generalizing values with
  | nil =>
      constructor
      · exact fun h => ⟨[], values, rfl, .nil, h⟩
      · rintro ⟨front, back, rfl, hfront, hback⟩
        cases hfront
        exact hback
  | cons t ts ih =>
      constructor
      · intro h
        cases h with
        | cons hvalue hvalues =>
            obtain ⟨front, back, rfl, hfront, hback⟩ := ih.1 hvalues
            exact ⟨_ :: front, back, rfl, .cons hvalue hfront, hback⟩
      · rintro ⟨front, back, rfl, hfront, hback⟩
        cases hfront with
        | cons hvalue hvalues => exact .cons hvalue (ih.2 ⟨_, back, rfl, hvalues, hback⟩)

theorem ValuesOf.exists_value {values : List Expr} {ts : List Ty} (h : ValuesOf r other values ts)
    {t : Ty} (ht : t ∈ ts) : ∃ value, ValueOf r other value t := by
  induction ts generalizing values with
  | nil => exact absurd ht List.not_mem_nil
  | cons first ts ih =>
      cases h with
      | cons hvalue hvalues =>
          rcases List.mem_cons.1 ht with rfl | ht
          · exact ⟨_, hvalue⟩
          · exact ih hvalues ht

theorem Populated.exists_args (h : Populated r other) {name : String} {ts : List Ty} {t : Ty}
    (hinstance : r.IsInstance t) (hbuilds : r.Builds name ts t) (ht : t.Within fun _ => False) :
    ∃ args, ValuesOf r other args ts := by
  cases hbuilds with
  | ofMeta hvariant howner =>
      obtain ⟨d, -, hd, _, -, heq⟩ := hinstance
      exact absurd (Ty.data.inj heq).1.symm hd
  | @ofData d v params _ hvariant howner hlength hmono hfields =>
      obtain ⟨hd, hv, hname⟩ := DataTypes.mem_of_variant? hvariant
      obtain ⟨value, args, hbuilt, hvalue⟩ :=
        h.constructor d hd howner v hv params hlength (Ty.within_data.1 ht)
      rw [hname] at hbuilt
      exact ⟨args, hvalue.valuesOf_args hinstance hbuilt (.ofData hvariant howner hlength hmono hfields)⟩

end

namespace Pattern

variable {r : DataTypes} {other : Ty → Expr → Prop}

/-- A row is one for values of some types, and names no constructor of the type of types. -/
def RowFits (r : DataTypes) (row : Row) (ts : List Ty) : Prop :=
  (∃ B B', FitsList r B row ts B') ∧ ∀ a ∈ applicationsList row, r.metaVariant? a.1 = none

theorem FitsList.append {B B' B'' : Naming} {ps qs : List Pattern} {ts us : List Ty}
    (hps : FitsList r B ps ts B') (hqs : FitsList r B' qs us B'') :
    FitsList r B (ps ++ qs) (ts ++ us) B'' := by
  induction ps generalizing B ts with
  | nil =>
      cases hps
      exact hqs
  | cons p ps ih =>
      cases hps with
      | cons hp hps => exact .cons hp (ih hps)

theorem fitsList_wildcards (B : Naming) (ts : List Ty) : FitsList r B (fit ts.length []) ts B := by
  induction ts with
  | nil => exact .nil
  | cons t ts ih => exact .cons .wildcard ih

/-- What a constructor at the head of a row says about the type of the values there. -/
theorem RowFits.of_constructor {name : String} {args rest : List Pattern} {t : Ty} {ts : List Ty}
    (h : RowFits r (.constructor name args :: rest) (t :: ts)) :
    r.IsInstance t ∧ ∃ fields, r.Builds name fields t ∧ args.length = fields.length := by
  obtain ⟨⟨B, B', hrow⟩, hmeta⟩ := h
  have hname : r.metaVariant? name = none :=
    hmeta (name, args.length) (List.mem_append_left _ (List.mem_cons_self ..))
  cases hrow with
  | cons hp _ =>
      cases hp with
      | constructor hbuilds hargs =>
          exact ⟨DataTypes.isInstance_of_builds hbuilds hname, _, hbuilds, hargs.length_eq⟩

theorem RowFits.of_const {literal : String} {rest : List Pattern} {t : Ty} {ts : List Ty}
    (h : RowFits r (.const literal :: rest) (t :: ts)) : t = .scalar := by
  obtain ⟨⟨B, B', hrow⟩, -⟩ := h
  cases hrow with
  | cons hp _ =>
      cases hp
      rfl

theorem RowFits.specialize {name : String} {fields : List Ty} {t : Ty} {ts : List Ty} {row row' : Row}
    (h : RowFits r row (t :: ts)) (hbuilds : r.Builds name fields t)
    (hrow : specializeRow name fields.length row = some row') : RowFits r row' (fields ++ ts) := by
  refine ⟨?_, fun a ha => h.2 a (applicationsList_specializeRow hrow ha)⟩
  obtain ⟨⟨B, B', hfits⟩, -⟩ := h
  match row with
  | .constructor head args :: rest =>
      rw [specializeRow] at hrow
      split at hrow
      · rename_i hname
        subst hname
        cases hrow
        cases hfits with
        | cons hp hrest =>
            cases hp with
            | constructor hbuilds' hargs =>
                obtain rfl := hbuilds.fields_unique hbuilds'
                rw [← hargs.length_eq, fit_length]
                exact ⟨B, B', hargs.append hrest⟩
      · cases hrow
  | .wildcard :: rest | .var _ :: rest =>
      cases hrow
      cases hfits with
      | cons _ hrest => exact ⟨_, B', (fitsList_wildcards _ _).append hrest⟩
  | .const _ :: _ | [] => cases hrow

theorem RowFits.default {t : Ty} {ts : List Ty} {row row' : Row} (h : RowFits r row (t :: ts))
    (hrow : defaultRow row = some row') : RowFits r row' ts := by
  refine ⟨?_, fun a ha => h.2 a (applicationsList_defaultRow hrow ha)⟩
  obtain ⟨⟨B, B', hfits⟩, -⟩ := h
  match row with
  | .wildcard :: rest | .var _ :: rest =>
      cases hrow
      cases hfits with
      | cons _ hrest => exact ⟨_, B', hrest⟩
  | .const _ :: _ | .constructor _ _ :: _ | [] => cases hrow

theorem RowFits.const {literal : String} {t : Ty} {ts : List Ty} {row row' : Row}
    (h : RowFits r row (t :: ts)) (hrow : specializeConst literal row = some row') :
    RowFits r row' ts := by
  refine ⟨?_, fun a ha => h.2 a (applicationsList_specializeConst hrow ha)⟩
  obtain ⟨⟨B, B', hfits⟩, -⟩ := h
  match row with
  | .const value :: rest =>
      rw [specializeConst] at hrow
      split at hrow
      · cases hrow
        cases hfits with
        | cons _ hrest => exact ⟨_, B', hrest⟩
      · cases hrow
  | .wildcard :: rest | .var _ :: rest =>
      cases hrow
      cases hfits with
      | cons _ hrest => exact ⟨_, B', hrest⟩
  | .constructor _ _ :: _ | [] => cases hrow

theorem acceptsAll_iff_specializeRow {name : String} {fields : List Ty} {t : Ty} {ts : List Ty}
    {row : Row} {value : Expr} {args values : List Expr} (hrow : RowFits r row (t :: ts))
    (hbuilds : r.Builds name fields t) (hbuilt : value.built? = some (name, args))
    (hlength : args.length = fields.length) :
    acceptsAll row (value :: values) = true ↔
      ∃ row', specializeRow name fields.length row = some row' ∧
        acceptsAll row' (args ++ values) = true := by
  match row with
  | .constructor head ps :: rest =>
      obtain ⟨-, fields', hbuilds', hps⟩ := hrow.of_constructor
      rw [acceptsAll, Bool.and_eq_true, accepts_constructor, specializeRow, hbuilt]
      by_cases hname : head = name
      · subst hname
        obtain rfl := hbuilds.fields_unique hbuilds'
        rw [if_pos rfl, ← hps, fit_length]
        simp [acceptsAll_append (hps.trans hlength.symm)]
      · simp [hname, Ne.symm hname]
  | .wildcard :: rest | .var _ :: rest =>
      have hwild : (fit fields.length []).length = args.length := by rw [length_fit, hlength]
      have hargs : acceptsAll (fit fields.length []) args = true := hlength ▸ acceptsAll_fit_nil args
      simp [specializeRow, acceptsAll, accepts, acceptsAll_append hwild, hargs]
  | .const literal :: rest =>
      cases value with
      | const => cases hbuilt
      | _ => simp [specializeRow, acceptsAll, accepts]
  | [] => simp [specializeRow, acceptsAll]

theorem acceptsAll_iff_specializeConst {literal : String} {row : Row} {values : List Expr} :
    acceptsAll row (.const literal :: values) = true ↔
      ∃ row', specializeConst literal row = some row' ∧ acceptsAll row' values = true := by
  match row with
  | .const value :: rest =>
      rw [acceptsAll, accepts, specializeConst]
      by_cases h : value = literal
      · simp [h]
      · simp [h, Ne.symm h]
  | .wildcard :: rest | .var _ :: rest => simp [specializeConst, acceptsAll, accepts]
  | .constructor _ _ :: _ => simp [specializeConst, acceptsAll, accepts]
  | [] => simp [specializeConst, acceptsAll]

theorem exists_defaultRow {row : Row} {value : Expr} {values : List Expr}
    (hconst : ∀ literal rest, row = .const literal :: rest → value ≠ .const literal)
    (hconstructor : ∀ name args rest, row = .constructor name args :: rest →
      ∀ vs, value.built? ≠ some (name, vs))
    (h : acceptsAll row (value :: values) = true) :
    ∃ row', defaultRow row = some row' ∧ acceptsAll row' values = true := by
  match row with
  | .wildcard :: rest | .var _ :: rest =>
      rw [acceptsAll, Bool.and_eq_true] at h
      exact ⟨rest, rfl, h.2⟩
  | .const literal :: rest =>
      rw [acceptsAll, Bool.and_eq_true] at h
      exact absurd (eq_of_accepts_const h.1) (hconst literal rest rfl)
  | .constructor name args :: rest =>
      rw [acceptsAll, Bool.and_eq_true] at h
      obtain ⟨vs, hbuilt, -⟩ := accepts_constructor.1 h.1
      exact absurd hbuilt (hconstructor name args rest rfl vs)
  | [] => cases h

/-- Some values that a query asks for and matches are matched by no row. -/
def Unmatched (r : DataTypes) (other : Ty → Expr → Prop) (rows : List Row) (q : Query) : Prop :=
  ∃ values, ValuesOf r other values (q.map (·.2)) ∧ acceptsAll (q.map (·.1)) values = true ∧
    ∀ row ∈ rows, acceptsAll row values = false

/-- A query and rows for ground types, each of which has values. -/
structure Posed (r : DataTypes) (other : Ty → Expr → Prop) (rows : List Row) (q : Query) : Prop where
  ground : ∀ t ∈ q.map (·.2), t.Within fun _ => False
  values : ∀ t ∈ q.map (·.2), ∃ value, ValueOf r other value t
  query : RowFits r (q.map (·.1)) (q.map (·.2))
  rows : ∀ row ∈ rows, RowFits r row (q.map (·.2))

theorem map_snd_columns (args : List Pattern) (fields : List Ty) :
    (columns args fields).map (·.2) = fields := by
  rw [columns, List.map_snd_zip (by rw [length_fit])]

section

variable {rows : List Row} {p : Pattern} {t : Ty} {rest : Query} {name : String}
  {args : List Pattern} {fields : List Ty}

theorem Posed.specialize (hr : r.isWhole = true) (hpop : Populated r other)
    (h : Posed r other rows ((p, t) :: rest)) (hinstance : r.IsInstance t)
    (hbuilds : r.Builds name fields t)
    (hp : specializeRow name fields.length (p :: rest.map (·.1)) =
      some (fit fields.length args ++ rest.map (·.1))) :
    Posed r other (specialize name fields.length rows) (columns args fields ++ rest) := by
  obtain ⟨ht, hrest⟩ := List.forall_mem_cons.1 h.ground
  obtain ⟨-, hvalues⟩ := List.forall_mem_cons.1 h.values
  obtain ⟨vs, hvs⟩ := hpop.exists_args hinstance hbuilds ht
  refine ⟨?_, ?_, ?_, fun row' hrow' => ?_⟩
  · rw [List.map_append, map_snd_columns]
    exact List.forall_mem_append.2 ⟨hbuilds.fields_ground hr ht, hrest⟩
  · rw [List.map_append, map_snd_columns]
    exact List.forall_mem_append.2 ⟨fun _ => hvs.exists_value, hvalues⟩
  · rw [List.map_append, List.map_append, map_fst_columns, map_snd_columns]
    exact h.query.specialize hbuilds hp
  · rw [List.map_append, map_snd_columns]
    obtain ⟨row, hrow, hrow'⟩ := List.mem_filterMap.1 hrow'
    exact (h.rows row hrow).specialize hbuilds hrow'

theorem Posed.default (h : Posed r other rows ((p, t) :: rest))
    (hp : defaultRow (p :: rest.map (·.1)) = some (rest.map (·.1))) :
    Posed r other (defaultRows rows) rest := by
  refine ⟨(List.forall_mem_cons.1 h.ground).2, (List.forall_mem_cons.1 h.values).2,
    h.query.default hp, fun row' hrow' => ?_⟩
  obtain ⟨row, hrow, hrow'⟩ := List.mem_filterMap.1 hrow'
  exact (h.rows row hrow).default hrow'

theorem Posed.const {literal : String} (h : Posed r other rows ((.const literal, t) :: rest)) :
    Posed r other (specializeToConst literal rows) rest := by
  have hspecialize : specializeConst literal (.const literal :: rest.map (·.1)) =
      some (rest.map (·.1)) := by simp [specializeConst]
  refine ⟨(List.forall_mem_cons.1 h.ground).2, (List.forall_mem_cons.1 h.values).2,
    h.query.const hspecialize, fun row' hrow' => ?_⟩
  obtain ⟨row, hrow, hrow'⟩ := List.mem_filterMap.1 hrow'
  exact (h.rows row hrow).const hrow'

theorem unmatched_of_specialize (h : Posed r other rows ((p, t) :: rest))
    (hinstance : r.IsInstance t) (hbuilds : r.Builds name fields t)
    (hp : specializeRow name fields.length (p :: rest.map (·.1)) =
      some (fit fields.length args ++ rest.map (·.1)))
    (hspecialized : Unmatched r other (specialize name fields.length rows)
      (columns args fields ++ rest)) : Unmatched r other rows ((p, t) :: rest) := by
  obtain ⟨values, hvalues, haccepts, hrows⟩ := hspecialized
  rw [List.map_append, map_snd_columns] at hvalues
  rw [List.map_append, map_fst_columns] at haccepts
  obtain ⟨vs, ws, rfl, hvs, hws⟩ := valuesOf_append.1 hvalues
  have hiff : ∀ row, RowFits r row (t :: rest.map (·.2)) →
      (acceptsAll row (.operation name vs :: ws) = true ↔
        ∃ row', specializeRow name fields.length row = some row' ∧
          acceptsAll row' (vs ++ ws) = true) := fun row hrow =>
    acceptsAll_iff_specializeRow hrow hbuilds rfl hvs.length_eq
  refine ⟨.operation name vs :: ws, .cons (.built rfl hinstance hbuilds hvs) hws,
    (hiff _ h.query).2 ⟨_, hp, haccepts⟩, fun row hrow => ?_⟩
  by_contra haccepted
  obtain ⟨row', hrow', haccepted⟩ := (hiff row (h.rows row hrow)).1 (Bool.not_eq_false _ ▸ haccepted)
  exact absurd haccepted (by simp [hrows row' (List.mem_filterMap.2 ⟨row, hrow, hrow'⟩)])

theorem unmatched_specialize (h : Posed r other rows ((p, t) :: rest))
    (hinstance : r.IsInstance t) (hbuilds : r.Builds name fields t)
    (hp : specializeRow name fields.length (p :: rest.map (·.1)) =
      some (fit fields.length args ++ rest.map (·.1))) {value : Expr} {vs values : List Expr}
    (hbuilt : value.built? = some (name, vs)) (hvalue : ValueOf r other value t)
    (hvalues : ValuesOf r other values (rest.map (·.2)))
    (haccepts : acceptsAll (p :: rest.map (·.1)) (value :: values) = true)
    (hrows : ∀ row ∈ rows, acceptsAll row (value :: values) = false) :
    Unmatched r other (specialize name fields.length rows) (columns args fields ++ rest) := by
  have hvs := hvalue.valuesOf_args hinstance hbuilt hbuilds
  have hiff : ∀ row, RowFits r row (t :: rest.map (·.2)) →
      (acceptsAll row (value :: values) = true ↔
        ∃ row', specializeRow name fields.length row = some row' ∧
          acceptsAll row' (vs ++ values) = true) := fun row hrow =>
    acceptsAll_iff_specializeRow hrow hbuilds hbuilt hvs.length_eq
  refine ⟨vs ++ values, ?_, ?_, fun row' hrow' => ?_⟩
  · rw [List.map_append, map_snd_columns]
    exact valuesOf_append.2 ⟨vs, values, rfl, hvs, hvalues⟩
  · rw [List.map_append, map_fst_columns]
    obtain ⟨row', hrow', haccepted⟩ := (hiff _ h.query).1 haccepts
    rwa [← Option.some.inj (hp.symm.trans hrow')] at haccepted
  · obtain ⟨row, hrow, hrow'⟩ := List.mem_filterMap.1 hrow'
    by_contra haccepted
    have := (hiff row (h.rows row hrow)).2 ⟨row', hrow', Bool.not_eq_false _ ▸ haccepted⟩
    exact absurd this (by simp [hrows row hrow])

theorem unmatched_const_iff {literal : String} (ht : t = .scalar) :
    Unmatched r other rows ((.const literal, t) :: rest) ↔
      Unmatched r other (specializeToConst literal rows) rest := by
  subst ht
  have hrows : ∀ values, (∀ row ∈ rows, acceptsAll row (.const literal :: values) = false) ↔
      ∀ row ∈ specializeToConst literal rows, acceptsAll row values = false := by
    intro values
    simp only [← Bool.not_eq_true, acceptsAll_iff_specializeConst, specializeToConst,
      List.mem_filterMap]
    grind
  constructor
  · rintro ⟨values, hvalues, haccepts, hunmatched⟩
    cases hvalues with
    | cons hvalue hvalues =>
        rw [List.map_cons, acceptsAll, Bool.and_eq_true] at haccepts
        obtain rfl := eq_of_accepts_const haccepts.1
        exact ⟨_, hvalues, haccepts.2, (hrows _).1 hunmatched⟩
  · rintro ⟨values, hvalues, haccepts, hunmatched⟩
    exact ⟨.const literal :: values, .cons .scalar hvalues, by simp [acceptsAll, accepts, haccepts],
      (hrows _).2 hunmatched⟩

theorem unmatched_default (hp : ∀ value, p.accepts value = true)
    (h : Unmatched r other rows ((p, t) :: rest)) : Unmatched r other (defaultRows rows) rest := by
  obtain ⟨values, hvalues, haccepts, hunmatched⟩ := h
  cases hvalues with
  | @cons value values _ _ hvalue hvalues =>
      rw [List.map_cons, acceptsAll, hp, Bool.true_and] at haccepts
      refine ⟨values, hvalues, haccepts, fun row' hrow' => ?_⟩
      obtain ⟨row, hrow, hdefault⟩ := List.mem_filterMap.1 hrow'
      by_contra haccepted
      have := acceptsAll_of_defaultRow value hdefault (Bool.not_eq_false _ ▸ haccepted)
      exact absurd this (by simp [hunmatched row hrow])

end

/-- The constructors of a ground instance of a data type are those that build something. -/
theorem mem_constructorsOf_iff (hr : r.Coherent) (hpop : Populated r other) {t : Ty}
    (ht : t.Within fun _ => False) (hinstance : r.IsInstance t) {name : String} :
    name ∈ constructorsOf r t ↔ ∃ fields, r.Builds name fields t := by
  constructor
  · intro hname
    obtain ⟨d, hd, howner, params, hlength, rfl⟩ := hinstance
    rw [Ty.instanceOf, constructorsOf, if_neg howner, DataTypes.variantsOf,
      hr.find?_eq_some_iff.2 ⟨hd, rfl⟩] at hname
    obtain ⟨v, hv, rfl⟩ := List.mem_map.1 hname
    obtain ⟨value, args, hbuilt, hvalue⟩ :=
      hpop.constructor d hd howner v hv params hlength (Ty.within_data.1 ht)
    obtain ⟨name, args', fields, hbuilt', hbuilds, -⟩ :=
      hvalue.exists_built ⟨d, hd, howner, params, hlength, rfl⟩
    cases hbuilt.symm.trans hbuilt'
    exact ⟨fields, hbuilds⟩
  · rintro ⟨fields, hbuilds⟩
    cases hbuilds with
    | ofMeta =>
        obtain ⟨d, -, howner, _, -, heq⟩ := hinstance
        exact absurd (Ty.data.inj heq).1.symm howner
    | ofData hvariant howner =>
        rw [Ty.instanceOf, constructorsOf, if_neg howner]
        exact DataTypes.Distinct.mem_variantsOf hr.types hvariant

theorem isInstance_of_covers {rows : List Row} {t : Ty} {ts : List Ty} {constructors : List String}
    (hrows : ∀ row ∈ rows, RowFits r row (t :: ts)) (h : covers rows constructors = true) :
    r.IsInstance t := by
  obtain ⟨row, hrow, hhead⟩ := exists_head_of_covers h
  match row with
  | .constructor name args :: rest => exact (hrows _ hrow).of_constructor.1
  | .wildcard :: _ | .var _ :: _ | .const _ :: _ | [] => cases hhead

/-- The literal at the head of a row. -/
def headLiteral? : Row → Option String
  | .const literal :: _ => some literal
  | _ => none

theorem exists_unnamed (hr : r.Coherent) (hpop : Populated r other) {rows : List Row} {t : Ty}
    {ts : List Ty} (ht : t.Within fun _ => False) (hvalue : ∃ value, ValueOf r other value t)
    (hrows : ∀ row ∈ rows, RowFits r row (t :: ts))
    (hcovers : ¬covers rows (constructorsOf r t) = true) :
    ∃ value, ValueOf r other value t ∧
      (∀ literal rest, .const literal :: rest ∈ rows → value ≠ .const literal) ∧
      ∀ name args rest, .constructor name args :: rest ∈ rows →
        ∀ vs, value.built? ≠ some (name, vs) := by
  obtain ⟨value, hvalue⟩ := hvalue
  by_cases hscalar : t = .scalar
  · -- there are more literals than rows
    subst hscalar
    obtain ⟨literal, hnew⟩ := Infinite.exists_notMem_finset (rows.filterMap headLiteral?).toFinset
    refine ⟨.const literal, .scalar, ?_, fun _ _ _ _ _ => by simp [Expr.built?]⟩
    rintro other rest hrow heq
    obtain rfl := Expr.const.inj heq
    exact hnew (List.mem_toFinset.2 (List.mem_filterMap.2 ⟨_, hrow, rfl⟩))
  by_cases hinstance : r.IsInstance t
  · obtain ⟨first, _, _, -, hfirst, -⟩ := hvalue.exists_built hinstance
    have hsome : constructorsOf r t ≠ [] :=
      List.ne_nil_of_mem ((mem_constructorsOf_iff hr hpop ht hinstance).2 ⟨_, hfirst⟩)
    obtain ⟨name, hname, hnew⟩ : ∃ name ∈ constructorsOf r t,
        name ∉ rows.filterMap headConstructor? := by
      simpa [covers, hsome] using hcovers
    obtain ⟨fields, hbuilds⟩ := (mem_constructorsOf_iff hr hpop ht hinstance).1 hname
    obtain ⟨args, hargs⟩ := hpop.exists_args hinstance hbuilds ht
    refine ⟨.operation name args, .built rfl hinstance hbuilds hargs, fun literal rest hrow => ?_, ?_⟩
    · exact absurd (hrows _ hrow).of_const hscalar
    · rintro head ps rest hrow vs hbuilt
      cases hbuilt
      exact hnew (List.mem_filterMap.2 ⟨_, hrow, rfl⟩)
  · refine ⟨value, hvalue, fun literal rest hrow => ?_, fun name args rest hrow => ?_⟩
    · exact absurd (hrows _ hrow).of_const hscalar
    · exact absurd (hrows _ hrow).of_constructor.1 hinstance

theorem run_anyM_iff {α : Type} {f : α → StateM Supply Bool} {P : α → Prop} {l : List α}
    {u u' : Supply} {b : Bool} (hf : ∀ a, Supply.Grows (f a)) (h : (l.anyM f).run u = (b, u'))
    (hP : ∀ a ∈ l, ∀ u₁ u₂ c, (f a).run u₁ = (c, u₂) → u₂ ≤ u' → (c = true ↔ P a)) :
    b = true ↔ ∃ a ∈ l, P a := by
  induction l generalizing u with
  | nil =>
      cases h
      simp
  | cons first rest ih =>
      rw [List.anyM, StateT.run_bind] at h
      cases hfirst : (f first).run u with
      | mk c u₁ =>
          rw [hfirst] at h
          have hhead := hP first (List.mem_cons_self ..) u u₁ c hfirst
          rw [List.exists_mem_cons_iff]
          cases c with
          | true =>
              cases h
              exact iff_of_true rfl (.inl ((hhead le_rfl).1 rfl))
          | false =>
              have hrest : (rest.anyM f).run u₁ = (b, u') := h
              have hgrows := Supply.Grows.anyM (l := rest) (fun a _ => hf a) u₁
              rw [hrest] at hgrows
              have hnot : ¬P first := by simpa using hhead hgrows
              rw [ih hrest fun a ha => hP a (List.mem_cons_of_mem _ ha)]
              simp [hnot]

/-- Whether a query on ground types is useful is whether it is unmatched. -/
def Decided (r : DataTypes) (other : Ty → Expr → Prop) (rows : List Row) (q : Query) : Prop :=
  ∀ {u u' : Supply} {b : Bool}, (useful r rows q).run u = (b, u') → u'.Unwrapped →
    Posed r other rows q → (b = true ↔ Unmatched r other rows q)

section

variable {rows : List Row} {p : Pattern} {t : Ty} {rest : Query}

theorem decided_fields (hr : r.isWhole = true) (hpop : Populated r other) {name : String}
    {args : List Pattern} {fields : List Ty} {u u' : Supply} {b : Bool}
    (ih : ∀ fields, Decided r other (specialize name (List.length fields) rows)
      (columns args fields ++ rest))
    (hrun : (do
      let fields ← fieldTypes r name t
      useful r (specialize name fields.length rows) (columns args fields ++ rest) :
        StateM Supply Bool).run u = (b, u'))
    (hu : u'.Unwrapped) (h : Posed r other rows ((p, t) :: rest)) (hinstance : r.IsInstance t)
    (hbuilds : r.Builds name fields t)
    (hp : specializeRow name fields.length (p :: rest.map (·.1)) =
      some (fit fields.length args ++ rest.map (·.1))) :
    b = true ↔ Unmatched r other (specialize name fields.length rows) (columns args fields ++ rest) := by
  rw [StateT.run_bind] at hrun
  cases hfields : (fieldTypes r name t).run u with
  | mk fields' u₁ =>
      rw [hfields] at hrun
      have hrun' : (useful r (specialize name fields'.length rows) (columns args fields' ++ rest)).run
          u₁ = (b, u') := hrun
      have hgrows := useful_grows r (specialize name fields'.length rows) (columns args fields' ++ rest) u₁
      rw [hrun'] at hgrows
      obtain rfl := DataTypes.fieldTypes_of_ground hr hfields (hu.of_le hgrows)
        (List.forall_mem_cons.1 h.ground).1 hbuilds
      exact ih fields' hrun' hu (h.specialize hr hpop hinstance hbuilds hp)

theorem decided_any (hr : r.isWhole = true) (hcoherent : r.Coherent) (hpop : Populated r other)
    (hp : p = .wildcard ∨ ∃ name, p = .var name)
    (hcovered : covers rows (constructorsOf r t) = true → ∀ name fields,
      Decided r other (specialize name (List.length fields) rows) (columns [] fields ++ rest))
    (hdefault : ¬covers rows (constructorsOf r t) = true → Decided r other (defaultRows rows) rest)
    (huseful : useful r rows ((p, t) :: rest) =
      if covers rows (constructorsOf r t) then
        (constructorsOf r t).anyM fun name => do
          let fields ← fieldTypes r name t
          useful r (specialize name fields.length rows) (columns [] fields ++ rest)
      else useful r (defaultRows rows) rest) : Decided r other rows ((p, t) :: rest) := by
  have hany : ∀ value, p.accepts value = true := by
    rcases hp with rfl | ⟨name, rfl⟩ <;> simp [accepts]
  have hspecialize : ∀ name n, specializeRow name n (p :: rest.map (·.1)) =
      some (fit n [] ++ rest.map (·.1)) := by
    rcases hp with rfl | ⟨name, rfl⟩ <;> simp [specializeRow]
  have hskip : defaultRow (p :: rest.map (·.1)) = some (rest.map (·.1)) := by
    rcases hp with rfl | ⟨name, rfl⟩ <;> rfl
  intro u u' b hrun hu h
  obtain ⟨ht, -⟩ := List.forall_mem_cons.1 h.ground
  rw [huseful] at hrun
  split at hrun
  · rename_i hcovers
    have hinstance : r.IsInstance t := isInstance_of_covers h.rows hcovers
    have hmem : ∀ name, name ∈ constructorsOf r t ↔ ∃ fields, r.Builds name fields t := fun _ =>
      mem_constructorsOf_iff hcoherent hpop ht hinstance
    rw [run_anyM_iff (P := fun name => ∃ fields, r.Builds name fields t ∧
      Unmatched r other (specialize name fields.length rows) (columns [] fields ++ rest))
      (fun name => (fieldTypes_grows r name t).bind fun _ => useful_grows r _ _) hrun ?_]
    · constructor
      · rintro ⟨name, -, fields, hbuilds, hunmatched⟩
        exact unmatched_of_specialize h hinstance hbuilds (hspecialize _ _) hunmatched
      · rintro ⟨values, hvalues, haccepts, hunmatched⟩
        cases hvalues with
        | cons hvalue hvalues =>
            obtain ⟨name, vs, fields, hbuilt, hbuilds, -⟩ := hvalue.exists_built hinstance
            exact ⟨name, (hmem name).2 ⟨fields, hbuilds⟩, fields, hbuilds,
              unmatched_specialize h hinstance hbuilds (hspecialize _ _) hbuilt hvalue hvalues haccepts
                hunmatched⟩
    · intro name hname u₁ u₂ c hname_run hle
      obtain ⟨fields, hbuilds⟩ := (hmem name).1 hname
      rw [decided_fields hr hpop (hcovered hcovers name) hname_run (hu.of_le hle) h hinstance hbuilds
        (hspecialize _ _)]
      constructor
      · exact fun hunmatched => ⟨fields, hbuilds, hunmatched⟩
      · rintro ⟨fields', hbuilds', hunmatched⟩
        rwa [hbuilds.fields_unique hbuilds']
  · rename_i hcovers
    rw [hdefault hcovers hrun hu (h.default hskip)]
    refine ⟨fun hunmatched => ?_, unmatched_default hany⟩
    obtain ⟨values, hvalues, haccepts, hunmatched⟩ := hunmatched
    obtain ⟨value, hvalue, hconst, hconstructor⟩ := exists_unnamed hcoherent hpop ht
      (List.forall_mem_cons.1 h.values).1 h.rows hcovers
    refine ⟨value :: values, .cons hvalue hvalues, by simp [acceptsAll, hany, haccepts],
      fun row hrow => ?_⟩
    by_contra haccepted
    obtain ⟨row', hrow', haccepted'⟩ := exists_defaultRow
      (fun literal rest heq => hconst literal rest (heq ▸ hrow))
      (fun name args rest heq => hconstructor name args rest (heq ▸ hrow))
      (Bool.not_eq_false _ ▸ haccepted)
    exact absurd haccepted' (by simp [hunmatched row' (List.mem_filterMap.2 ⟨row, hrow, hrow'⟩)])

end

theorem decided_useful (hr : r.isWhole = true) (hcoherent : r.Coherent) (hpop : Populated r other)
    (rows : List Row) (q : Query) : Decided r other rows q := by
  induction rows, q using useful.induct (r := r) with
  | case1 rows =>
      intro u u' b hrun _ h
      rw [useful] at hrun
      obtain ⟨rfl, -⟩ := Prod.mk.inj hrun
      have hrows : ∀ row ∈ rows, row = [] := fun row hrow => by
        obtain ⟨⟨B, B', hfits⟩, -⟩ := h.rows row hrow
        exact List.eq_nil_of_length_eq_zero hfits.length_eq
      constructor
      · intro hempty
        rw [List.isEmpty_iff] at hempty
        exact ⟨[], .nil, rfl, by simp [hempty]⟩
      · rintro ⟨values, hvalues, -, hunmatched⟩
        cases hvalues
        rw [List.isEmpty_iff]
        refine List.eq_nil_iff_forall_not_mem.2 fun row hrow => ?_
        have := hunmatched row hrow
        rw [hrows row hrow] at this
        cases this
  | case2 rows name args t rest ih =>
      intro u u' b hrun hu h
      rw [useful] at hrun
      obtain ⟨hinstance, fields, hbuilds, hlength⟩ := h.query.of_constructor
      have hp : specializeRow name fields.length (.constructor name args :: rest.map (·.1)) =
          some (fit fields.length args ++ rest.map (·.1)) := by simp [specializeRow]
      rw [decided_fields hr hpop ih hrun hu h hinstance hbuilds hp]
      refine ⟨unmatched_of_specialize h hinstance hbuilds hp, ?_⟩
      rintro ⟨values, hvalues, haccepts, hunmatched⟩
      cases hvalues with
      | cons hvalue hvalues =>
          have hboth := haccepts
          rw [List.map_cons, acceptsAll, Bool.and_eq_true] at hboth
          obtain ⟨vs, hbuilt, -⟩ := accepts_constructor.1 hboth.1
          exact unmatched_specialize h hinstance hbuilds hp hbuilt hvalue hvalues haccepts hunmatched
  | case3 rows literal t rest ih =>
      intro u u' b hrun hu h
      rw [useful] at hrun
      rw [ih hrun hu h.const, unmatched_const_iff h.query.of_const]
  | case4 rows t rest h ih =>
      refine decided_any hr hcoherent hpop (.inl rfl) (fun _ => ih) (fun hnot => absurd h hnot) ?_
      rw [useful]
      simp only [dite_eq_ite]
  | case5 rows t rest h ih =>
      refine decided_any hr hcoherent hpop (.inl rfl) (fun hcovers => absurd hcovers h) (fun _ => ih) ?_
      rw [useful]
      simp only [dite_eq_ite]
  | case6 rows name t rest h ih =>
      refine decided_any hr hcoherent hpop (.inr ⟨_, rfl⟩) (fun _ => ih) (fun hnot => absurd h hnot) ?_
      rw [useful]
      simp only [dite_eq_ite]
  | case7 rows name t rest h ih =>
      refine decided_any hr hcoherent hpop (.inr ⟨_, rfl⟩) (fun hcovers => absurd hcovers h)
        (fun _ => ih) ?_
      rw [useful]
      simp only [dite_eq_ite]

end Pattern

end Formulary
