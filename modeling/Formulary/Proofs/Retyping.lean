import Formulary.Proofs.Alike
import Formulary.Proofs.Coverage
import Formulary.Proofs.Covering
import Formulary.Proofs.Exhaustiveness
import Formulary.Proofs.PrincipalPatterns

namespace Formulary

namespace DataTypes

variable {r : DataTypes}

theorem constructorsOf_eq_of_builds {name : String} {ts ts' : List Ty} {t t' : Ty}
    (h : r.Builds name ts t) (h' : r.Builds name ts' t') :
    Pattern.constructorsOf r t = Pattern.constructorsOf r t' := by
  cases h with
  | ofMeta hvariant howner =>
      obtain ⟨-, rfl⟩ := (builds_iff_of_meta hvariant howner).1 h'
      rfl
  | ofData hvariant howner =>
      obtain ⟨params, -, -, -, rfl⟩ := (builds_iff_of_data hvariant howner).1 h'
      rfl

theorem exists_valuation_of_fieldTypes (hr : r.isWhole = true) {name : String} {t : Ty}
    {u u' : Supply} {fields ts : List Ty}
    (hrun : (Pattern.fieldTypes r name t).run u = (fields, u')) (hu : u'.Unwrapped)
    (ht : t.inScope u.next) (hbuilds : r.Builds name ts t) :
    ∃ θ : Valuation, θ.IsMono ∧ fields = ts.map (·.bind θ) := by
  obtain ⟨v, s, hinstance, hscope, hunify, rfl, -⟩ := exists_variant_of_fieldTypes hr hrun hu ht
    (θ := .var) (fun _ => rfl) ((Ty.bind_var t).symm ▸ hbuilds)
  have hgeneral := Ty.unify_mostGeneral ht.1 hscope.1.1 hunify
  obtain ⟨-, hsound⟩ := ((r.instantiate_finds name).finds u v u' hinstance trivial hu hr).sound
    s.image (fun _ => none) hgeneral.mono
  rw [← (unifies_cons.1 hgeneral.unifies).1] at hsound
  refine ⟨s.image, hgeneral.mono, ?_⟩
  calc (v.fields.map (·.type)).map s.apply
      = v.fields.map fun f => f.type.bind s.image := by
        rw [List.map_map]
        exact List.map_congr_left fun f _ => Subst.apply_eq_bind s f.type
    _ = ts.map (·.bind s.image) := hsound.fields_unique (hbuilds.bind hgeneral.mono)

end DataTypes

namespace Pattern

variable {r : DataTypes}

mutual

theorem IsFor.bind {Γ : Naming} {p : Pattern} {t : Ty} (h : p.IsFor r Γ t) {θ : Valuation}
    (hθ : θ.IsMono) : p.IsFor r (fun name => (Γ name).map (·.bind θ)) (t.bind θ) := by
  cases h with
  | wildcard => exact .wildcard
  | var hname => exact .var (by rw [hname, Option.map_some])
  | const => exact .const
  | constructor hbuilds hargs => exact .constructor (hbuilds.bind hθ) (hargs.bind hθ)

theorem IsForList.bind {Γ : Naming} {ps : List Pattern} {ts : List Ty} (h : IsForList r Γ ps ts)
    {θ : Valuation} (hθ : θ.IsMono) :
    IsForList r (fun name => (Γ name).map (·.bind θ)) ps (ts.map (·.bind θ)) := by
  cases h with
  | nil => exact .nil
  | cons hp hps => exact .cons (hp.bind hθ) (hps.bind hθ)

end

/-- The patterns of a row are ones for values of some types, each on its own. -/
def RowIsFor (r : DataTypes) (row : Row) (ts : List Ty) : Prop :=
  List.Forall₂ (fun p t => ∃ Γ : Naming, p.IsFor r Γ t) row ts

theorem IsForList.rowIsFor {Γ : Naming} {ps : List Pattern} {ts : List Ty}
    (h : IsForList r Γ ps ts) : RowIsFor r ps ts := by
  induction ps generalizing ts with
  | nil =>
      cases h
      exact .nil
  | cons p ps ih =>
      cases h with
      | cons hp hps => exact .cons ⟨Γ, hp⟩ (ih hps)

theorem rowIsFor_wildcards (ts : List Ty) : RowIsFor r (fit ts.length []) ts := by
  induction ts with
  | nil => exact .nil
  | cons t ts ih => exact .cons ⟨.empty, .wildcard⟩ ih

namespace RowIsFor

variable {row row' : Row} {t : Ty} {ts : List Ty}

theorem append {ps : Row} {us : List Ty} (hps : RowIsFor r ps us) (h : RowIsFor r row ts) :
    RowIsFor r (ps ++ row) (us ++ ts) := List.rel_append hps h

theorem exists_builds {name : String} (h : RowIsFor r row (t :: ts))
    (hhead : headConstructor? row = some name) : ∃ us, r.Builds name us t := by
  match row with
  | .constructor head args :: rest =>
      cases hhead
      cases h with
      | cons hp _ =>
          obtain ⟨Γ, hp⟩ := hp
          cases hp with
          | constructor hbuilds _ => exact ⟨_, hbuilds⟩
  | .wildcard :: _ | .var _ :: _ | .const _ :: _ | [] => cases hhead

/-- A row for values of a type has, for the fields of a constructor, patterns for the types of its
fields there. -/
theorem specialize {name : String} {fields : List Ty} (h : RowIsFor r row (t :: ts))
    (hfields : ∀ us, r.Builds name us t → ∃ θ : Valuation, θ.IsMono ∧ fields = us.map (·.bind θ))
    (hrow : specializeRow name fields.length row = some row') : RowIsFor r row' (fields ++ ts) := by
  match row with
  | .constructor head args :: rest =>
      rw [specializeRow] at hrow
      split at hrow
      · rename_i hname
        subst hname
        cases hrow
        cases h with
        | cons hp hrest =>
            obtain ⟨Γ, hp⟩ := hp
            cases hp with
            | constructor hbuilds hargs =>
                obtain ⟨θ, hθ, rfl⟩ := hfields _ hbuilds
                have hargs := (hargs.bind hθ).rowIsFor
                rw [← hargs.length_eq, fit_length]
                exact hargs.append hrest
      · cases hrow
  | .wildcard :: rest | .var _ :: rest =>
      cases hrow
      cases h with
      | cons _ hrest => exact (rowIsFor_wildcards fields).append hrest
  | .const _ :: _ | [] => cases hrow

theorem default (h : RowIsFor r row (t :: ts)) (hrow : defaultRow row = some row') :
    RowIsFor r row' ts := by
  match row with
  | .wildcard :: rest | .var _ :: rest =>
      cases hrow
      cases h with
      | cons _ hrest => exact hrest
  | .const _ :: _ | .constructor _ _ :: _ | [] => cases hrow

theorem const {literal : String} (h : RowIsFor r row (t :: ts))
    (hrow : specializeConst literal row = some row') : RowIsFor r row' ts := by
  match row with
  | .const value :: rest =>
      rw [specializeConst] at hrow
      split at hrow
      · cases hrow
        cases h with
        | cons _ hrest => exact hrest
      · cases hrow
  | .wildcard :: rest | .var _ :: rest =>
      cases hrow
      cases h with
      | cons _ hrest => exact hrest
  | .constructor _ _ :: _ | [] => cases hrow

end RowIsFor

theorem covers_of_rowIsFor {rows : List Row} {t t' : Ty} {ts ts' : List Ty}
    (hrows : ∀ row ∈ rows, RowIsFor r row (t :: ts)) (hrows' : ∀ row ∈ rows, RowIsFor r row (t' :: ts'))
    (hcovers : covers rows (constructorsOf r t) = true ∨ covers rows (constructorsOf r t') = true) :
    constructorsOf r t = constructorsOf r t' := by
  obtain ⟨row, hrow, hhead⟩ : ∃ row ∈ rows, (headConstructor? row).isSome := by
    rcases hcovers with hcovers | hcovers
    · exact exists_head_of_covers hcovers
    · exact exists_head_of_covers hcovers
  obtain ⟨name, hname⟩ := Option.isSome_iff_exists.1 hhead
  obtain ⟨us, hbuilds⟩ := (hrows row hrow).exists_builds hname
  obtain ⟨us', hbuilds'⟩ := (hrows' row hrow).exists_builds hname
  exact DataTypes.constructorsOf_eq_of_builds hbuilds hbuilds'

theorem inScope_of_fieldTypes {name : String} {t : Ty} {u u' : Supply} {fields : List Ty}
    (hrun : (fieldTypes r name t).run u = (fields, u')) (hu : u'.Unwrapped)
    (ht : t.inScope u.next) : Every Ty.inScope fields u'.next := by
  have ht' : t.inScope u'.next := t.inScope.mono (next_le_next_of_fieldTypes hrun hu) ht
  rw [run_fieldTypes] at hrun
  rcases hout : Attempt.outcome (r.instantiate name) u with ⟨e | v, s⟩ <;> rw [hout] at hrun
  · cases hrun
    exact every_nil _ _
  · obtain ⟨rfl, rfl⟩ := Prod.mk.inj hrun
    obtain ⟨hresult, hfields⟩ := DataTypes.within_of_returns_instantiate hout hu
    have hfields : Every Ty.inScope (v.fields.map (·.type)) s.next := by
      intro w hw
      obtain ⟨f, hf, rfl⟩ := List.mem_map.1 hw
      exact (hfields f hf).imp fun _ h => h.2
    unfold fieldsIn
    split
    · rename_i σ hunify
      have hσ : σ.inScope s.next :=
        (Ty.unify_mostGeneral ht.1 hresult.1 hunify).within fun x hx => by
          rcases List.mem_append.1 hx with hx | hx
          · exact ht'.2 x hx
          · exact (hresult.2 x hx).2
      intro w hw
      obtain ⟨w', hw', rfl⟩ := List.mem_map.1 hw
      exact Subst.within_apply hσ (hfields w' hw')
    · exact hfields

theorem exists_fieldTypes_scalar {name : String} {t : Ty} {u u' : Supply} {ts : List Ty}
    (hrun : (fieldTypes r name t).run u = (ts, u')) :
    ∃ ws, (fieldTypes r name .scalar).run u = (ws, u') ∧ ws.length = ts.length := by
  have hlength : ∀ (t : Ty) (v : VariantInstance), (fieldsIn t v).length = v.fields.length := by
    intro t v
    unfold fieldsIn
    split <;> simp
  rw [run_fieldTypes] at hrun ⊢
  rcases hout : Attempt.outcome (r.instantiate name) u with ⟨e | v, s⟩ <;> rw [hout] at hrun
  · cases hrun
    exact ⟨[], rfl, rfl⟩
  · obtain ⟨rfl, rfl⟩ := Prod.mk.inj hrun
    exact ⟨_, rfl, by rw [hlength, hlength]⟩

theorem length_fieldTypes_eq {name : String} {t t' : Ty} {u u' u₁ u₁' : Supply} {ts ts' : List Ty}
    (hrun : (fieldTypes r name t).run u = (ts, u₁))
    (hrun' : (fieldTypes r name t').run u' = (ts', u₁')) (hu : u₁.Unwrapped) (hu' : u₁'.Unwrapped) :
    ts.length = ts'.length := by
  obtain ⟨ws, hscalar, hlength⟩ := exists_fieldTypes_scalar hrun
  obtain ⟨ws', hscalar', hlength'⟩ := exists_fieldTypes_scalar hrun'
  have hnumbered : ∀ n, Ty.scalar.NumberedBelow n := fun n => Ty.within_scalar.numberedBelow
  have hall := fieldTypes_alike (Ty.Alike.refl _) (hnumbered _) (hnumbered _) hscalar hscalar' hu hu'
  rw [← hlength, ← hlength', hall.length_eq]

/-- A query and rows for values of the types of its columns. -/
structure Asked (r : DataTypes) (rows : List Row) (q : Query) (n : Int) : Prop where
  types : Every Ty.inScope (q.map (·.2)) n
  rows : ∀ row ∈ rows, RowIsFor r row (q.map (·.2))

namespace Asked

variable {rows : List Row} {p : Pattern} {t : Ty} {rest : Query} {n : Int}

theorem mono (h : Asked r rows rest n) {m : Int} (hle : n ≤ m) : Asked r rows rest m :=
  ⟨(Every Ty.inScope _).mono hle h.types, h.rows⟩

theorem default (h : Asked r rows ((p, t) :: rest) n) : Asked r (defaultRows rows) rest n := by
  refine ⟨(every_cons.1 h.types).2, fun row' hrow' => ?_⟩
  obtain ⟨row, hrow, hdefault⟩ := List.mem_filterMap.1 hrow'
  exact (h.rows row hrow).default hdefault

theorem const (h : Asked r rows ((p, t) :: rest) n) (literal : String) :
    Asked r (specializeToConst literal rows) rest n := by
  refine ⟨(every_cons.1 h.types).2, fun row' hrow' => ?_⟩
  obtain ⟨row, hrow, hconst⟩ := List.mem_filterMap.1 hrow'
  exact (h.rows row hrow).const hconst

theorem specialize (hr : r.isWhole = true) {u u' : Supply} (h : Asked r rows ((p, t) :: rest) u.next)
    {name : String} {fields : List Ty} (hrun : (fieldTypes r name t).run u = (fields, u'))
    (hu : u'.Unwrapped) (args : List Pattern) :
    Asked r (specialize name fields.length rows) (columns args fields ++ rest) u'.next := by
  obtain ⟨ht, hrest⟩ := every_cons.1 h.types
  refine ⟨?_, fun row' hrow' => ?_⟩
  · rw [List.map_append, map_snd_columns]
    exact List.forall_mem_append.2 ⟨inScope_of_fieldTypes hrun hu ht,
      (Every Ty.inScope _).mono (next_le_next_of_fieldTypes hrun hu) hrest⟩
  · obtain ⟨row, hrow, hspecialized⟩ := List.mem_filterMap.1 hrow'
    rw [List.map_append, map_snd_columns]
    exact (h.rows row hrow).specialize
      (fun us hbuilds => DataTypes.exists_valuation_of_fieldTypes hr hrun hu ht hbuilds) hspecialized

end Asked

/-- If a query is not useful, it is not with other types for its columns either. -/
def Settles (r : DataTypes) (rows : List Row) (q : Query) : Prop :=
  ∀ {q' : Query} {u u' u₁ u₁' : Supply}, q'.map (·.1) = q.map (·.1) → Asked r rows q u.next →
    Asked r rows q' u'.next → (useful r rows q).run u = (false, u₁) →
    (useful r rows q').run u' = (true, u₁') → u₁.Unwrapped → u₁'.Unwrapped → False

section

variable {rows : List Row} {p : Pattern} {t t' : Ty} {rest rest' : Query}

theorem false_of_asked (hr : r.isWhole = true) {name : String} {args : List Pattern}
    (hsettles : ∀ ts : List Ty, Settles r (specialize name ts.length rows) (columns args ts ++ rest))
    (hps : rest'.map (·.1) = rest.map (·.1)) {u u' u₁ u₁' u₂ u₂' : Supply} {ts ts' : List Ty}
    (hasked : Asked r rows ((p, t) :: rest) u.next)
    (hasked' : Asked r rows ((p, t') :: rest') u'.next)
    (hfields : (fieldTypes r name t).run u = (ts, u₁))
    (hfields' : (fieldTypes r name t').run u' = (ts', u₁'))
    (hrun : (useful r (specialize name ts.length rows) (columns args ts ++ rest)).run u₁ =
      (false, u₂))
    (hrun' : (useful r (specialize name ts'.length rows) (columns args ts' ++ rest')).run u₁' =
      (true, u₂')) (hu : u₂.Unwrapped) (hu' : u₂'.Unwrapped) : False := by
  have hu₁ := unwrapped_of_useful hrun hu
  have hu₁' := unwrapped_of_useful hrun' hu'
  have hlength := length_fieldTypes_eq hfields hfields' hu₁ hu₁'
  have hspecialized := hasked'.specialize hr hfields' hu₁' args
  rw [← hlength] at hrun' hspecialized
  refine hsettles ts ?_ (hasked.specialize hr hfields hu₁ args) hspecialized hrun hrun' hu hu'
  rw [List.map_append, List.map_append, map_fst_columns, map_fst_columns, hlength, hps]

theorem settles_any (hr : r.isWhole = true) (hp : p.isIrrefutable = true)
    (hspecialize : covers rows (constructorsOf r t) = true → ∀ name (ts : List Ty),
      Settles r (specialize name ts.length rows) (columns [] ts ++ rest))
    (hdefault : ¬covers rows (constructorsOf r t) = true → Settles r (defaultRows rows) rest) :
    Settles r rows ((p, t) :: rest) := by
  intro q' u u' u₁ u₁' hps hasked hasked' hrun hrun' hu hu'
  obtain ⟨⟨p', t'⟩, rest', rfl, hhead, hrest⟩ := List.map_eq_cons_iff.1 hps
  obtain rfl : p' = p := hhead
  have hsame := covers_of_rowIsFor hasked.rows hasked'.rows
  rcases useful_false_cases hp hrun hu with ⟨hcovers, hfalse⟩ | ⟨hcovers, hfalse⟩
  · rcases useful_true_cases hp hrun' hu' with ⟨-, name, hname, htrue⟩ | ⟨hcovers', -⟩
    · rw [← hsame (.inl hcovers)] at hname
      obtain ⟨ts, s, s₁, s₂, hle, hfields, hrun, hs⟩ := hfalse name hname
      obtain ⟨ts', s', s₁', s₂', hle', hfields', hrun', hs'⟩ := htrue
      exact false_of_asked hr (hspecialize hcovers name) hrest (hasked.mono hle) (hasked'.mono hle')
        hfields hfields' hrun hrun' hs hs'
    · exact hcovers' (hsame (.inl hcovers) ▸ hcovers)
  · rcases useful_true_cases hp hrun' hu' with ⟨hcovers', -⟩ | ⟨-, htrue⟩
    · exact hcovers (hsame (.inr hcovers') ▸ hcovers')
    · exact hdefault hcovers hrest hasked.default hasked'.default hfalse htrue hu hu'

end

theorem settles_useful (hr : r.isWhole = true) (rows : List Row) (q : Query) : Settles r rows q := by
  induction rows, q using useful.induct (r := r) with
  | case1 rows =>
      intro q' u u' u₁ u₁' hps _ _ hrun hrun' _ _
      obtain rfl := List.map_eq_nil_iff.1 hps
      rw [useful] at hrun hrun'
      exact Bool.false_ne_true ((congrArg Prod.fst hrun).symm.trans (congrArg Prod.fst hrun'))
  | case2 rows name args t rest ih =>
      intro q' u u' u₁ u₁' hps hasked hasked' hrun hrun' hu hu'
      obtain ⟨⟨p', t'⟩, rest', rfl, hhead, hrest⟩ := List.map_eq_cons_iff.1 hps
      obtain rfl : p' = _ := hhead
      rw [useful, StateT.run_bind] at hrun hrun'
      cases hfields : (fieldTypes r name t).run u with
      | mk ts s =>
          cases hfields' : (fieldTypes r name t').run u' with
          | mk ts' s' =>
              rw [hfields] at hrun
              rw [hfields'] at hrun'
              exact false_of_asked hr ih hrest hasked hasked' hfields hfields' hrun hrun' hu hu'
  | case3 rows literal t rest ih =>
      intro q' u u' u₁ u₁' hps hasked hasked' hrun hrun' hu hu'
      obtain ⟨⟨p', t'⟩, rest', rfl, hhead, hrest⟩ := List.map_eq_cons_iff.1 hps
      obtain rfl : p' = _ := hhead
      rw [useful] at hrun hrun'
      exact ih hrest (hasked.const literal) (hasked'.const literal) hrun hrun' hu hu'
  | case4 rows t rest h ih => exact settles_any hr rfl (fun _ => ih) fun hnot => absurd h hnot
  | case5 rows t rest h ih => exact settles_any hr rfl (fun hcovers => absurd hcovers h) fun _ => ih
  | case6 rows name t rest h ih => exact settles_any hr rfl (fun _ => ih) fun hnot => absurd h hnot
  | case7 rows name t rest h ih =>
      exact settles_any hr rfl (fun hcovers => absurd hcovers h) fun _ => ih

/-- Every value is matched by a row. -/
def HasIrrefutable (rows : List Row) (n : Nat) : Prop :=
  ∃ row ∈ rows, row.length = n ∧ ∀ p ∈ row, p.isIrrefutable = true

namespace HasIrrefutable

variable {rows : List Row} {n : Nat}

theorem filterMap (h : HasIrrefutable rows (n + 1)) (step : Row → Option Row) (added : Row)
    (hadded : ∀ p ∈ added, p.isIrrefutable = true)
    (hstep : ∀ p rest, p.isIrrefutable = true → step (p :: rest) = some (added ++ rest)) :
    HasIrrefutable (rows.filterMap step) (added.length + n) := by
  obtain ⟨row, hrow, hlength, hirrefutable⟩ := h
  obtain ⟨p, rest, rfl⟩ := List.exists_cons_of_length_eq_add_one hlength
  obtain ⟨hp, hrest⟩ := List.forall_mem_cons.1 hirrefutable
  refine ⟨added ++ rest, List.mem_filterMap.2 ⟨_, hrow, hstep p rest hp⟩, ?_,
    List.forall_mem_append.2 ⟨hadded, hrest⟩⟩
  rw [List.length_append, Nat.succ.inj hlength]

theorem specialize (h : HasIrrefutable rows (n + 1)) (name : String) (args : List Pattern)
    (fields : List Ty) :
    HasIrrefutable (specialize name fields.length rows) ((columns args fields).length + n) := by
  have hwildcards : ∀ p ∈ fit fields.length [], p.isIrrefutable = true := fun p hp => by
    rw [forall_fit_eq_wildcard (fun _ h => absurd h List.not_mem_nil) _ p hp]
    rfl
  have hlength : (columns args fields).length = (fit fields.length []).length := by
    rw [columns, List.length_zip, length_fit, length_fit, Nat.min_self]
  rw [hlength]
  exact h.filterMap _ _ hwildcards fun p rest hp =>
    Covers.specializeRow_of_isIrrefutable hp _ rest

theorem default (h : HasIrrefutable rows (n + 1)) : HasIrrefutable (defaultRows rows) n := by
  have hdefault := h.filterMap defaultRow [] (fun _ h => absurd h List.not_mem_nil)
    fun p rest hp => Covers.defaultRow_of_isIrrefutable hp rest
  rwa [List.length_nil, Nat.zero_add] at hdefault

theorem const (h : HasIrrefutable rows (n + 1)) (literal : String) :
    HasIrrefutable (specializeToConst literal rows) n := by
  have hconst := h.filterMap (specializeConst literal) []
    (fun _ h => absurd h List.not_mem_nil) fun p rest hp => by
      cases p with
      | wildcard | var => rfl
      | const | constructor => cases hp
  rwa [List.length_nil, Nat.zero_add] at hconst

end HasIrrefutable

theorem useful_eq_false_of_irrefutable {rows : List Row} {q : Query}
    (h : HasIrrefutable rows q.length) {u u' : Supply} {b : Bool}
    (hrun : (useful r rows q).run u = (b, u')) : b = false := by
  have hany : ∀ {rows : List Row} {t : Ty} {rest : Query} {u u' : Supply} {b : Bool},
      (∀ name (ts : List Ty) {u u' : Supply} {b : Bool},
        (useful r (specialize name ts.length rows) (columns [] ts ++ rest)).run u = (b, u') →
          b = false) →
      ((constructorsOf r t).anyM fun name => do
        let fields ← fieldTypes r name t
        useful r (specialize name fields.length rows) (columns [] fields ++ rest)).run u = (b, u') →
      b = false := by
    intro rows t rest u u' b hfields hrun
    have hiff := run_anyM_iff (P := fun _ => False) (fun name =>
      (fieldTypes_grows r name t).bind fun _ => useful_grows r _ _) hrun
      fun name _ u₁ u₂ c hname _ => by
        rw [StateT.run_bind] at hname
        cases hrun : (fieldTypes r name t).run u₁ with
        | mk ts s =>
            rw [hrun] at hname
            simp [hfields name ts hname]
    simpa using hiff
  induction rows, q using useful.induct (r := r) generalizing u u' b with
  | case1 rows =>
      obtain ⟨row, hrow, -⟩ := h
      rw [useful] at hrun
      have hempty : rows.isEmpty = false := List.isEmpty_eq_false_iff.2 (List.ne_nil_of_mem hrow)
      exact (congrArg Prod.fst hrun).symm.trans hempty
  | case2 rows name args t rest ih =>
      rw [useful, StateT.run_bind] at hrun
      cases hfields : (fieldTypes r name t).run u with
      | mk ts s =>
          rw [hfields] at hrun
          refine ih ts ?_ hrun
          rw [List.length_append]
          exact h.specialize name args ts
  | case3 rows literal t rest ih =>
      rw [useful] at hrun
      exact ih (h.const literal) hrun
  | case4 rows t rest hcovers ih | case6 rows name t rest hcovers ih =>
      rw [useful_of_isIrrefutable rfl, if_pos hcovers] at hrun
      refine hany (fun name ts u u' b hrun => ih name ts ?_ hrun) hrun
      rw [List.length_append]
      exact h.specialize name [] ts
  | case5 rows t rest hcovers ih | case7 rows name t rest hcovers ih =>
      rw [useful_of_isIrrefutable rfl, if_neg hcovers] at hrun
      exact ih h.default hrun

theorem constructorsOf_eq_of_isFor {Γ Γ' : Naming} {p : Pattern} {t t' : Ty} (h : p.IsFor r Γ t)
    (h' : p.IsFor r Γ' t') (hp : p.isIrrefutable = false) :
    constructorsOf r t = constructorsOf r t' := by
  cases h with
  | wildcard => cases hp
  | var => cases hp
  | const =>
      cases h'
      rfl
  | constructor hbuilds =>
      cases h' with
      | constructor hbuilds' => exact DataTypes.constructorsOf_eq_of_builds hbuilds hbuilds'

/-- The queries that decide what is missing from patterns for the values of a type. -/
def queries (r : DataTypes) (t : Ty) : List Pattern :=
  match constructorsOf r t with
  | [] => [.wildcard]
  | names => names.map fun name => .constructor name (fit (match r.variant? name with
    | some (_, v) => v.fields.length
    | none => 0) [])

variable {ps : List Pattern} {t : Ty} {u u' : Supply}

theorem exists_run_of_missing_nil (hrun : (missing r ps t).run u = ([], u')) {p : Pattern}
    (hp : p ∈ queries r t) : ∃ u₁ u₂, u ≤ u₁ ∧
      (useful r (ps.map fun p => [p]) [(p, t)]).run u₁ = (false, u₂) ∧ u₂ ≤ u' := by
  unfold missing at hrun
  unfold queries at hp
  cases hnames : constructorsOf r t with
  | nil =>
      rw [hnames] at hrun hp
      obtain rfl := List.mem_singleton.1 hp
      rw [StateT.run_bind] at hrun
      cases huseful : (useful r (ps.map fun p => [p]) [(.wildcard, t)]).run u with
      | mk b s =>
          rw [huseful] at hrun
          cases b with
          | true => cases hrun
          | false =>
              cases hrun
              exact ⟨u, _, le_rfl, huseful, le_rfl⟩
  | cons first rest =>
      rw [hnames] at hrun hp
      obtain ⟨name, hname, rfl⟩ := List.mem_map.1 hp
      exact run_filterM_eq_nil (fun _ => useful_grows _ _ _) hrun hname

theorem missing_eq_nil {names : List String} (hrun : (missing r ps t).run u = (names, u'))
    (hfalse : ∀ p ∈ queries r t, ∀ u₁ u₂ b, u ≤ u₁ → u₂ ≤ u' →
      (useful r (ps.map fun p => [p]) [(p, t)]).run u₁ = (b, u₂) → b = false) : names = [] := by
  unfold missing at hrun
  unfold queries at hfalse
  cases hnames : constructorsOf r t with
  | nil =>
      rw [hnames] at hrun hfalse
      rw [StateT.run_bind] at hrun
      cases huseful : (useful r (ps.map fun p => [p]) [(.wildcard, t)]).run u with
      | mk b s =>
          rw [huseful] at hrun
          have hs : s = u' := congrArg Prod.snd hrun
          obtain rfl := hfalse _ (List.mem_singleton_self _) u s b le_rfl (le_of_eq hs) huseful
          exact (congrArg Prod.fst hrun).symm
  | cons first rest =>
      rw [hnames] at hrun hfalse
      have hnone := run_filterM_eq (p := fun _ => false) (fun _ => useful_grows _ _ _) hrun
        fun name hname u₁ u₂ b hquery hle hle' =>
          hfalse _ (List.mem_map_of_mem hname) u₁ u₂ b hle hle' hquery
      rw [hnone, List.filter_false]

theorem missing_retyped (hr : r.isWhole = true) (hsome : ps ≠ []) {t' : Ty} {s s' : Supply}
    {names : List String} (hps : ∀ p ∈ ps, (∃ Γ, p.IsFor r Γ t) ∧ ∃ Γ, p.IsFor r Γ t')
    (ht : t.inScope u.next) (ht' : t'.inScope s.next) (hrun : (missing r ps t).run u = ([], u'))
    (hrun' : (missing r ps t').run s = (names, s')) (hu : u'.Unwrapped) (hs : s'.Unwrapped) :
    names = [] := by
  refine missing_eq_nil hrun' fun p hp s₁ s₂ b hle hle' huseful => ?_
  have hs₂ := hs.of_le hle'
  by_cases hirrefutable : ∃ p ∈ ps, p.isIrrefutable = true
  · obtain ⟨q, hq, hmatches⟩ := hirrefutable
    refine useful_eq_false_of_irrefutable ⟨[q], List.mem_map.2 ⟨q, hq, rfl⟩, rfl, ?_⟩ huseful
    exact List.forall_mem_singleton.2 hmatches
  · -- a pattern that does not match everything tells the constructors
    obtain ⟨q, hq⟩ := List.exists_mem_of_ne_nil ps hsome
    obtain ⟨⟨Γ, hfor⟩, Γ', hfor'⟩ := hps q hq
    have hsame := constructorsOf_eq_of_isFor hfor hfor'
      (Bool.eq_false_iff.2 fun h => hirrefutable ⟨q, hq, h⟩)
    have hquery : p ∈ queries r t := by
      unfold queries at hp ⊢
      rwa [hsame]
    obtain ⟨u₁, u₂, hbefore, hfalse, hbehind⟩ := exists_run_of_missing_nil hrun hquery
    have hu₂ := hu.of_le hbehind
    have hrows : ∀ {w : Ty}, (∀ p ∈ ps, ∃ Γ, p.IsFor r Γ w) →
        ∀ row ∈ ps.map fun p => [p], RowIsFor r row [w] := by
      intro w hw row hrow
      obtain ⟨q, hq, rfl⟩ := List.mem_map.1 hrow
      exact .cons (hw q hq) .nil
    cases b with
    | false => rfl
    | true =>
        have hasked : Asked r (ps.map fun p => [p]) [(p, t)] u₁.next :=
          ⟨every_cons.2 ⟨t.inScope.mono ((unwrapped_of_useful hfalse hu₂).next_le_next hbefore) ht,
            every_nil _ _⟩, hrows fun q hq => (hps q hq).1⟩
        have hasked' : Asked r (ps.map fun p => [p]) [(p, t')] s₁.next :=
          ⟨every_cons.2 ⟨t'.inScope.mono ((unwrapped_of_useful huseful hs₂).next_le_next hle) ht',
            every_nil _ _⟩, hrows fun q hq => (hps q hq).2⟩
        have hquery : [(p, t')].map (·.1) = [(p, t)].map (·.1) := rfl
        exact (settles_useful hr _ _ hquery hasked hasked' hfalse huseful hu₂ hs₂).elim

end Pattern

end Formulary
