import Formulary.Proofs.Conservativity
import Formulary.Proofs.Evaluating

namespace Formulary

namespace DataTypes

variable {r r' : DataTypes}

/-- One list of declarations keeps the constructors of another, with what their fields mean. -/
structure Keeps (r r' : DataTypes) : Prop where
  variant? : ∀ name d v, r.variant? name = some (d, v) → r'.variant? name = some (d, v) ∧
    ∀ f ∈ v.fields, f.type.MeansSame r r' (if d.name = Ty.metaName then [] else d.params)

theorem Keeps.refl (r : DataTypes) : r.Keeps r where
  variant? _ _ _ hvariant := ⟨hvariant, fun _ _ => TypeExpr.meansSame_refl ..⟩

variable {name : String} {ts : List Ty} {t : Ty}

theorem Keeps.builds (h : r.Keeps r') (hbuilds : r.Builds name ts t) : r'.Builds name ts t := by
  cases hbuilds with
  | @ofMeta d v _ hvariant howner hfields =>
      obtain ⟨hvariant', hmeans⟩ := h.variant? name d v hvariant
      rw [if_pos howner] at hmeans
      refine .ofMeta hvariant' howner ?_
      refine ((List.forall₂_and_left _ _).2 ⟨hmeans, hfields⟩).imp fun f t hboth => ?_
      obtain ⟨hf, declared, hresolve, ht⟩ := hboth
      exact ⟨declared, resolveClosed_of_meansSame hf hresolve, ht⟩
  | @ofData d v params _ hvariant howner hlength hmono hfields =>
      obtain ⟨hvariant', hmeans⟩ := h.variant? name d v hvariant
      rw [if_neg howner] at hmeans
      have hnames : (scopeOf d params).map (·.1) = d.params := by
        rw [scopeOf, Mirror.map_fst_zip_some, hlength, List.take_length]
      refine .ofData hvariant' howner hlength hmono ?_
      refine ((List.forall₂_and_left _ _).2 ⟨hmeans, hfields⟩).imp fun f t hboth => ?_
      exact resolveClosed_of_meansSame (hnames.symm ▸ hboth.1) hboth.2

theorem Keeps.isPlain (h : r.Keeps r') (hplain : r.isPlain name = true) : r'.isPlain name = true := by
  unfold DataTypes.isPlain at hplain ⊢
  split at hplain
  · rename_i d v hvariant
    obtain ⟨hvariant', hmeans⟩ := h.variant? name d v hvariant
    rw [hvariant']
    dsimp only
    rw [Bool.and_eq_true, List.all_eq_true, decide_eq_true_eq] at hplain ⊢
    rw [if_neg hplain.1] at hmeans
    refine ⟨hplain.1, fun f hf => ?_⟩
    have hkind := hplain.2 f hf
    split at hkind
    · rename_i t ht
      have hscope : (d.params.map fun p => (p, some (Ty.var 0))).map (·.1) = d.params := by
        rw [List.map_map]
        exact List.map_id _
      rw [resolveClosed_of_meansSame (hscope.symm ▸ hmeans f hf) ht]
      exact hkind
    · cases hkind
  · cases hplain

end DataTypes

namespace Pattern

variable {r r' : DataTypes}

mutual

theorem Fits.keeps (hr : r.Keeps r') {p : Pattern} {t : Ty} {B B' : Naming} (h : p.Fits r B t B') :
    p.Fits r' B t B' := by
  cases p with
  | wildcard =>
      cases h
      exact .wildcard
  | var name =>
      cases h with
      | var hnew => exact .var hnew
  | const value =>
      cases h
      exact .const
  | constructor name args =>
      cases h with
      | constructor hbuilds hargs => exact .constructor (hr.builds hbuilds) (FitsList.keeps hr hargs)

theorem FitsList.keeps (hr : r.Keeps r') {ps : List Pattern} {ts : List Ty} {B B' : Naming}
    (h : FitsList r B ps ts B') : FitsList r' B ps ts B' := by
  match ps with
  | [] =>
      cases h
      exact .nil
  | p :: ps =>
      cases h with
      | cons hp hps => exact .cons (Fits.keeps hr hp) (FitsList.keeps hr hps)

end

end Pattern

/-- Behind a load that introduces no name that has been written for a type, the constructors from
before are there. -/
theorem Registry.Gains.keeps {r r' : Registry} {decls : List Declaration} (h : r.Gains r' decls)
    (hwritten : ∀ d ∈ decls, ∀ name ∈ d.typeNames, name ∉ r.written) : r.data.Keeps r'.data where
  variant? name d v hvariant := by
    refine ⟨(h.variant?_of_isSome (by simp [hvariant])).trans hvariant, fun f hf => ?_⟩
    obtain ⟨hd, hv, -⟩ := DataTypes.mem_of_variant? hvariant
    refine TypeExpr.meansSame_of_written fun other hother => h.meansSame fun decl hdecl hnew => ?_
    refine hwritten decl hdecl other hnew ?_
    refine List.mem_append_left _ (List.mem_append_left _ (List.mem_flatMap.2 ⟨d, hd, ?_⟩))
    exact List.mem_flatMap.2 ⟨v, hv, List.mem_flatMap.2 ⟨f, hf, hother⟩⟩

/-- What names stand for in one setting they stand for in another. The types of names that nothing
declares are left out. -/
structure Setting.Within (S S' : Setting) : Prop where
  data : S.registry.data.Keeps S'.registry.data
  schemes : ∀ name scheme, S.schemes name = some scheme → S'.schemes name = some scheme
  sized : ∀ name n, S.sized name n → S'.sized name n
  free : S.free = .empty

section

variable {S S' : Setting}

mutual

theorem Typed.within (hS : S.Within S') {e : Expr} {L : Naming} {t : Ty} (h : Typed S L e t) :
    Typed S' L e t := by
  cases e with
  | blank => cases h
  | const value =>
      cases h
      exact .const
  | object name =>
      cases h with
      | bound hname hinstance => exact .bound hname hinstance
      | defined hlocal hname hinstance => exact .defined hlocal (hS.schemes _ _ hname) hinstance
      | constant hlocal hplain hbuilds =>
          exact .constant hlocal (hS.data.isPlain hplain) (hS.data.builds hbuilds)
      | free _ _ _ hfree =>
          rw [hS.free] at hfree
          cases hfree
  | operation name args =>
      cases h with
      | construction hargs hplain hbuilds =>
          exact .construction (TypedList.within hS hargs) (hS.data.isPlain hplain)
            (hS.data.builds hbuilds)
      | call hname hsized hargs hinstance =>
          exact .call (hS.schemes _ _ hname) (hS.sized _ _ hsized) (TypedList.within hS hargs)
            hinstance
  | matching scrutinee cases =>
      cases h with
      | matching hscrutinee hcases =>
          exact .matching (Typed.within hS hscrutinee) (TypedCases.within hS hcases)

theorem TypedList.within (hS : S.Within S') {es : List Expr} {L : Naming} {ts : List Ty}
    (h : TypedList S L es ts) : TypedList S' L es ts := by
  match es with
  | [] =>
      cases h
      exact .nil
  | e :: es =>
      cases h with
      | cons he hes => exact .cons (Typed.within hS he) (TypedList.within hS hes)

theorem TypedCases.within (hS : S.Within S') {cases : List (Pattern × Expr)} {L : Naming} {s t : Ty}
    (h : TypedCases S L s cases t) : TypedCases S' L s cases t := by
  match cases with
  | [] =>
      cases h
      exact .nil
  | (p, body) :: rest =>
      cases h with
      | cons hp hbody hcases =>
          exact .cons (Pattern.Fits.keeps hS.data hp) (Typed.within hS hbody)
            (TypedCases.within hS hcases)

end

theorem Definition.HasScheme.within (hS : S.Within S') {d : Definition} {scheme : Ty}
    (h : d.HasScheme S scheme) : d.HasScheme S' scheme := fun ts t hlength hinstance =>
  (h ts t hlength hinstance).within hS

theorem Setting.Defines.within (hS : S.Within S') {defs : List Definition} (h : S.Defines defs)
    (hback : ∀ d ∈ defs, ∀ scheme, S'.schemes d.name = some scheme → S.schemes d.name = some scheme) :
    S'.Defines defs := fun d hd scheme hname =>
  (h d hd scheme (hback d hd scheme hname)).within hS

end

end Formulary
