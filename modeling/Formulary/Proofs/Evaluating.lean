import Formulary.Evaluation
import Formulary.Proofs.Capture
import Formulary.Proofs.Variants

/-!
Evaluation keeps types. What is applied is a constructor or a definition, whatever variables are
called around it; so the rules of typing are read here with the schemes of definitions apart from
the types of variables. Substitution keeps the types of expressions, a pattern that matches a value
binds values of the types of its variables, and so what an expression evaluates to has the type of
the expression, if the definitions have the types that their schemes say.
-/

namespace Formulary

/-- What names stand for when an expression is evaluated. -/
structure Setting where
  registry : Registry
  /-- The types of names that nothing declares. -/
  free : Naming
  /-- The schemes of definitions. -/
  schemes : Naming
  /-- The numbers of arguments that a definition may be called with. -/
  sized : String → Nat → Prop

mutual

/-- An expression has a type where variables have the types of `L`. -/
inductive Typed (S : Setting) : Naming → Expr → Ty → Prop
  | const {L : Naming} {value : String} : Typed S L (.const value) .scalar
  | bound {L : Naming} {name : String} {scheme t : Ty} (hname : L name = some scheme)
      (hinstance : scheme.Instance t) : Typed S L (.object name) t
  | defined {L : Naming} {name : String} {scheme t : Ty} (hlocal : L name = none)
      (hname : S.schemes name = some scheme) (hinstance : scheme.Instance t) :
      Typed S L (.object name) t
  | constant {L : Naming} {name : String} {t : Ty} (hlocal : L name = none)
      (hplain : S.registry.data.isPlain name = true) (hbuilds : S.registry.data.Builds name [] t) :
      Typed S L (.object name) t
  | free {L : Naming} {name : String} {t : Ty} (hlocal : L name = none)
      (hname : S.schemes name = none) (hopen : S.registry.isOpen name = true)
      (hfree : S.free name = some t) : Typed S L (.object name) t
  | construction {L : Naming} {name : String} {args : List Expr} {ts : List Ty} {t : Ty}
      (hargs : TypedList S L args ts) (hplain : S.registry.data.isPlain name = true)
      (hbuilds : S.registry.data.Builds name ts t) : Typed S L (.operation name args) t
  | call {L : Naming} {name : String} {args : List Expr} {scheme : Ty} {ts : List Ty} {t : Ty}
      (hname : S.schemes name = some scheme) (hsized : S.sized name args.length)
      (hargs : TypedList S L args ts) (hinstance : scheme.Instance (Ty.curry ts t)) :
      Typed S L (.operation name args) t
  | matching {L : Naming} {scrutinee : Expr} {cases : List (Pattern × Expr)} {s t : Ty}
      (hscrutinee : Typed S L scrutinee s) (hcases : TypedCases S L s cases t) :
      Typed S L (.matching scrutinee cases) t

inductive TypedList (S : Setting) : Naming → List Expr → List Ty → Prop
  | nil {L : Naming} : TypedList S L [] []
  | cons {L : Naming} {e : Expr} {es : List Expr} {t : Ty} {ts : List Ty} (he : Typed S L e t)
      (hes : TypedList S L es ts) : TypedList S L (e :: es) (t :: ts)

inductive TypedCases (S : Setting) : Naming → Ty → List (Pattern × Expr) → Ty → Prop
  | nil {L : Naming} {s t : Ty} : TypedCases S L s [] t
  | cons {L B : Naming} {s t : Ty} {p : Pattern} {body : Expr} {cases : List (Pattern × Expr)}
      (hp : p.Fits S.registry.data .empty s B) (hbody : Typed S (L.over B) body t)
      (hcases : TypedCases S L s cases t) : TypedCases S L s ((p, body) :: cases) t

end

theorem TypedList.length_eq {S : Setting} {L : Naming} {es : List Expr} {ts : List Ty}
    (h : TypedList S L es ts) : ts.length = es.length := by
  match es with
  | [] =>
      cases h
      rfl
  | _ :: _ =>
      cases h with
      | cons _ hes => exact congrArg (· + 1) hes.length_eq

namespace Naming

variable {Γ B : Naming} {name : String}

theorem over_of_some {t : Ty} (h : B name = some t) : Γ.over B name = some t := by
  rw [Naming.over, h, Option.some_or]

theorem over_of_none (h : B name = none) : Γ.over B name = Γ name := by
  rw [Naming.over, h, Option.none_or]

theorem empty_over (B : Naming) : Naming.empty.over B = B := by
  funext name
  rw [Naming.over, Naming.empty, Option.or_none]

end Naming

theorem Pattern.Fits.eq_none_iff {r : DataTypes} {p : Pattern} {t : Ty} {B : Naming}
    (h : p.Fits r .empty t B) (name : String) : B name = none ↔ name ∉ p.vars := by
  have hsome := h.isSome_iff name
  simp only [Naming.empty, Option.isSome_none, Bool.false_eq_true, or_false] at hsome
  rw [← hsome]
  simp

section

variable {S : Setting}

mutual

/-- Only the variables that occur free in an expression matter for its type. -/
theorem Typed.congr {e : Expr} {L L' : Naming} {t : Ty} {bound : List String} (h : Typed S L e t)
    (hfree : ∀ name ∈ e.freeOccurrences bound, L name = L' name)
    (hbound : ∀ name ∈ bound, L name = L' name) : Typed S L' e t := by
  cases e with
  | blank => cases h
  | const value =>
      cases h
      exact .const
  | object name =>
      have hname : L name = L' name := by
        by_cases hmem : name ∈ bound
        · exact hbound name hmem
        · exact hfree name (by simp [Expr.freeOccurrences, hmem])
      cases h with
      | bound hlocal hinstance => exact .bound (hname ▸ hlocal) hinstance
      | defined hlocal hdefined hinstance => exact .defined (hname ▸ hlocal) hdefined hinstance
      | constant hlocal hplain hbuilds => exact .constant (hname ▸ hlocal) hplain hbuilds
      | free hlocal hdefined hopen hfree => exact .free (hname ▸ hlocal) hdefined hopen hfree
  | operation name args =>
      have hargs := (List.forall_mem_append.1 hfree).2
      cases h with
      | construction hts hplain hbuilds => exact .construction (hts.congr hargs hbound) hplain hbuilds
      | call hdefined hsized hts hinstance =>
          exact .call hdefined hsized (hts.congr hargs hbound) hinstance
  | matching scrutinee cases =>
      obtain ⟨hscrutinee, hcases⟩ := List.forall_mem_append.1 hfree
      cases h with
      | matching hs hts => exact .matching (hs.congr hscrutinee hbound) (hts.congr hcases hbound)

theorem TypedList.congr {es : List Expr} {L L' : Naming} {ts : List Ty} {bound : List String}
    (h : TypedList S L es ts) (hfree : ∀ name ∈ Expr.freeOccurrencesList bound es, L name = L' name)
    (hbound : ∀ name ∈ bound, L name = L' name) : TypedList S L' es ts := by
  match es with
  | [] =>
      cases h
      exact .nil
  | e :: es =>
      obtain ⟨hfirst, hrest⟩ := List.forall_mem_append.1 hfree
      cases h with
      | cons he hes => exact .cons (he.congr hfirst hbound) (hes.congr hrest hbound)

theorem TypedCases.congr {cases : List (Pattern × Expr)} {L L' : Naming} {s t : Ty}
    {bound : List String} (h : TypedCases S L s cases t)
    (hfree : ∀ name ∈ Expr.freeOccurrencesCases bound cases, L name = L' name)
    (hbound : ∀ name ∈ bound, L name = L' name) : TypedCases S L' s cases t := by
  match cases with
  | [] =>
      cases h
      exact .nil
  | (p, body) :: rest =>
      obtain ⟨hfirst, hrest⟩ := List.forall_mem_append.1 hfree
      cases h with
      | @cons _ B _ _ _ _ _ hp hbody hcases =>
          have hover : ∀ name, L name = L' name → L.over B name = L'.over B name := fun name h => by
            rw [Naming.over, Naming.over, h]
          refine .cons hp (hbody.congr (fun name hname => hover name (hfirst name hname))
            fun name hname => ?_)
            (hcases.congr hrest hbound)
          cases hB : B name with
          | some u => rw [Naming.over_of_some hB, Naming.over_of_some hB]
          | none =>
              have hvars := (hp.eq_none_iff name).1 hB
              exact hover name (hbound name ((List.mem_append.1 hname).resolve_left hvars))

end

end

namespace Naming

/-- What a naming gives some variables, when the variables are renamed. -/
def through (B : Naming) (names : List (String × String)) (vars : List String) : Naming := fun y =>
  (vars.find? fun z => Expr.renamed names z = y).bind B

variable {names : List (String × String)} {vars : List String}

theorem through_empty : Naming.empty.through names vars = Naming.empty := by
  funext y
  rw [through]
  cases vars.find? _ <;> rfl

theorem through_renamed (B : Naming)
    (hinjective : ∀ z ∈ vars, ∀ z' ∈ vars, Expr.renamed names z = Expr.renamed names z' → z = z')
    {z : String} (hz : z ∈ vars) : B.through names vars (Expr.renamed names z) = B z := by
  have hfind : vars.find? (fun z' => Expr.renamed names z' = Expr.renamed names z) = some z := by
    cases hfound : vars.find? (fun z' => Expr.renamed names z' = Expr.renamed names z) with
    | none => simpa using List.find?_eq_none.1 hfound z hz
    | some z' =>
        have hsame : Expr.renamed names z' = Expr.renamed names z := by
          simpa using List.find?_some hfound
        rw [hinjective z' (List.mem_of_find?_eq_some hfound) z hz hsame]
  rw [through, hfind]
  rfl

theorem through_eq_none (B : Naming) {y : String} (h : ∀ z ∈ vars, Expr.renamed names z ≠ y) :
    B.through names vars y = none := by
  rw [through, List.find?_eq_none.2 fun z hz => by simpa using h z hz]
  rfl

theorem exists_of_through {B : Naming} {y : String} {t : Ty}
    (h : B.through names vars y = some t) : ∃ z ∈ vars, Expr.renamed names z = y ∧ B z = some t := by
  obtain ⟨z, hfind, hz⟩ := Option.bind_eq_some_iff.1 h
  exact ⟨z, List.mem_of_find?_eq_some hfind, by simpa using List.find?_some hfind, hz⟩

theorem through_update (B : Naming)
    (hinjective : ∀ z ∈ vars, ∀ z' ∈ vars, Expr.renamed names z = Expr.renamed names z' → z = z')
    {name : String} (hname : name ∈ vars) (t : Ty) :
    through (Function.update B name (some t)) names vars =
      Function.update (B.through names vars) (Expr.renamed names name) (some t) := by
  funext y
  rw [Function.update_apply]
  split
  · rename_i hy
    rw [hy, through_renamed _ hinjective hname, Function.update_self]
  · rename_i hy
    rw [through, through]
    cases hfind : vars.find? fun z => Expr.renamed names z = y with
    | none => rfl
    | some z =>
        have hz : Expr.renamed names z = y := by simpa using List.find?_some hfind
        refine Function.update_of_ne ?_ _ _
        rintro rfl
        exact hy hz.symm

end Naming

namespace Pattern

variable {r : DataTypes} {names : List (String × String)} {vars : List String}

mutual

theorem Fits.rename {p : Pattern} {t : Ty} {B B' : Naming} (h : p.Fits r B t B')
    (hvars : p.vars ⊆ vars)
    (hinjective : ∀ z ∈ vars, ∀ z' ∈ vars, Expr.renamed names z = Expr.renamed names z' → z = z') :
    (p.rename names).Fits r (B.through names vars) t (B'.through names vars) := by
  cases p with
  | wildcard =>
      cases h
      exact .wildcard
  | var name =>
      cases h with
      | var hnew =>
          have hname : name ∈ vars := hvars (List.mem_singleton_self name)
          rw [Naming.through_update B hinjective hname]
          exact .var ((Naming.through_renamed B hinjective hname).trans hnew)
  | const value =>
      cases h
      exact .const
  | constructor name args =>
      cases h with
      | constructor hbuilds hargs => exact .constructor hbuilds (hargs.rename hvars hinjective)

theorem FitsList.rename {ps : List Pattern} {ts : List Ty} {B B' : Naming}
    (h : FitsList r B ps ts B') (hvars : varsList ps ⊆ vars)
    (hinjective : ∀ z ∈ vars, ∀ z' ∈ vars, Expr.renamed names z = Expr.renamed names z' → z = z') :
    FitsList r (B.through names vars) (renameList names ps) ts (B'.through names vars) := by
  match ps with
  | [] =>
      cases h
      exact .nil
  | p :: ps =>
      obtain ⟨hfirst, hrest⟩ := List.append_subset.1 hvars
      cases h with
      | cons hp hps => exact .cons (hp.rename hfirst hinjective) (hps.rename hrest hinjective)

end

end Pattern

section

variable {S : Setting}

mutual

/-- Variables may be renamed to names that the expression does not mention. -/
theorem Typed.rename {e : Expr} {names : List (String × String)} {L L' : Naming} {t : Ty}
    (h : Typed S L e t)
    (hL : ∀ z ∈ e.mentioned, (∀ u, L z = some u → L' (Expr.renamed names z) = some u) ∧
      (L z = none → Expr.renamed names z = z ∧ L' z = none))
    (hfresh : ∀ z ∈ e.mentioned, Expr.renamed names z = z ∨ Expr.renamed names z ∉ e.mentioned) :
    Typed S L' (e.rename names) t := by
  cases e with
  | blank => cases h
  | const value =>
      cases h
      exact .const
  | object name =>
      obtain ⟨hsome, hnone⟩ := hL name (List.mem_singleton_self name)
      have hrename : (Expr.object name).rename names = .object (Expr.renamed names name) := rfl
      rw [hrename]
      cases h with
      | bound hlocal hinstance => exact .bound (hsome _ hlocal) hinstance
      | defined hlocal hdefined hinstance =>
          obtain ⟨hsame, hlocal⟩ := hnone hlocal
          rw [hsame]
          exact .defined hlocal hdefined hinstance
      | constant hlocal hplain hbuilds =>
          obtain ⟨hsame, hlocal⟩ := hnone hlocal
          rw [hsame]
          exact .constant hlocal hplain hbuilds
      | free hlocal hdefined hopen hfree =>
          obtain ⟨hsame, hlocal⟩ := hnone hlocal
          rw [hsame]
          exact .free hlocal hdefined hopen hfree
  | operation name args =>
      cases h with
      | construction hargs hplain hbuilds =>
          exact .construction (hargs.rename hL hfresh) hplain hbuilds
      | call hdefined hsized hargs hinstance =>
          refine .call hdefined ?_ (hargs.rename hL hfresh) hinstance
          rw [← (hargs.rename hL hfresh).length_eq, hargs.length_eq]
          exact hsized
  | matching scrutinee cases =>
      obtain ⟨hscrutinee, hcases⟩ := List.forall_mem_append.1 hL
      obtain ⟨hfreshFirst, hfreshRest⟩ := List.forall_mem_append.1 hfresh
      cases h with
      | matching hs hts =>
          refine .matching (hs.rename hscrutinee fun z hz => ?_) (hts.rename hcases fun z hz => ?_)
          · exact (hfreshFirst z hz).imp_right fun h hmem => h (List.mem_append_left _ hmem)
          · exact (hfreshRest z hz).imp_right fun h hmem => h (List.mem_append_right _ hmem)

theorem TypedList.rename {es : List Expr} {names : List (String × String)} {L L' : Naming}
    {ts : List Ty} (h : TypedList S L es ts)
    (hL : ∀ z ∈ Expr.mentionedList es, (∀ u, L z = some u → L' (Expr.renamed names z) = some u) ∧
      (L z = none → Expr.renamed names z = z ∧ L' z = none))
    (hfresh : ∀ z ∈ Expr.mentionedList es, Expr.renamed names z = z ∨
      Expr.renamed names z ∉ Expr.mentionedList es) :
    TypedList S L' (Expr.renameList names es) ts := by
  match es with
  | [] =>
      cases h
      exact .nil
  | e :: es =>
      obtain ⟨hfirst, hrest⟩ := List.forall_mem_append.1 hL
      obtain ⟨hfreshFirst, hfreshRest⟩ := List.forall_mem_append.1 hfresh
      cases h with
      | cons he hes =>
          refine .cons (he.rename hfirst fun z hz => ?_) (hes.rename hrest fun z hz => ?_)
          · exact (hfreshFirst z hz).imp_right fun h hmem => h (List.mem_append_left _ hmem)
          · exact (hfreshRest z hz).imp_right fun h hmem => h (List.mem_append_right _ hmem)

theorem TypedCases.rename {cases : List (Pattern × Expr)} {names : List (String × String)}
    {L L' : Naming} {s t : Ty} (h : TypedCases S L s cases t)
    (hL : ∀ z ∈ Expr.mentionedCases cases,
      (∀ u, L z = some u → L' (Expr.renamed names z) = some u) ∧
        (L z = none → Expr.renamed names z = z ∧ L' z = none))
    (hfresh : ∀ z ∈ Expr.mentionedCases cases, Expr.renamed names z = z ∨
      Expr.renamed names z ∉ Expr.mentionedCases cases) :
    TypedCases S L' s (Expr.renameCases names cases) t := by
  match cases with
  | [] =>
      cases h
      exact .nil
  | (p, body) :: rest =>
      obtain ⟨hfirst, hrest⟩ := List.forall_mem_append.1 hL
      obtain ⟨hfreshFirst, hfreshRest⟩ := List.forall_mem_append.1 hfresh
      cases h with
      | @cons _ B _ _ _ _ _ hp hbody hcases =>
          refine .cons hp (hbody.rename (fun z hz => ?_) fun z hz => ?_)
            (hcases.rename hrest fun z hz => ?_)
          · obtain ⟨hsome, hnone⟩ := hfirst z (List.mem_append_right _ hz)
            by_cases hvar : z ∈ p.vars
            · -- a variable of the case itself stays as it is
              rw [Expr.renamed_filter_of_mem hvar]
              cases hB : B z with
              | none => exact absurd hvar ((hp.eq_none_iff z).1 hB)
              | some u => simp [Naming.over_of_some hB]
            · have hB := (hp.eq_none_iff z).2 hvar
              rw [Expr.renamed_filter_of_notMem hvar, Naming.over_of_none hB,
                Naming.over_of_none hB]
              refine ⟨fun u hu => ?_, hnone⟩
              have hBfresh : B (Expr.renamed names z) = none := by
                refine (hp.eq_none_iff _).2 fun hmem => ?_
                rcases hfreshFirst z (List.mem_append_right _ hz) with hsame | hnot
                · exact hvar (hsame ▸ hmem)
                · exact hnot (List.mem_append_left _ (List.mem_append_left _ hmem))
              rw [Naming.over_of_none hBfresh]
              exact hsome u hu
          · by_cases hvar : z ∈ p.vars
            · exact .inl (Expr.renamed_filter_of_mem hvar)
            · rw [Expr.renamed_filter_of_notMem hvar]
              exact (hfreshFirst z (List.mem_append_right _ hz)).imp_right fun h hmem =>
                h (List.mem_append_left _ (List.mem_append_right _ hmem))
          · exact (hfreshRest z hz).imp_right fun h hmem => h (List.mem_append_right _ hmem)

end

end

/-- Bindings give the variables of `L` expressions for every use of them; the variables that they do
not bind are those of `L'`. -/
structure Supplies (S : Setting) (L' : Naming) (bindings : Expr.Bindings) (L : Naming) : Prop where
  bound : ∀ name u, L name = some u →
    (∃ a, bindings.lookup name = some a ∧ ∀ t, u.Instance t → Typed S L' a t) ∨
      bindings.lookup name = none ∧ L' name = some u
  other : ∀ name, L name = none → bindings.lookup name = none ∧ L' name = none

namespace Expr.Bindings

theorem lookup_without (bindings : Bindings) (names : List String) (name : String) :
    (bindings.without names).lookup name =
      if name ∈ names then none else bindings.lookup name := by
  induction bindings with
  | nil => simp [without]
  | cons b rest ih =>
      unfold without at ih ⊢
      by_cases hb : b.1 ∈ names
      · rw [List.filter_cons_of_neg (by simpa using hb), ih]
        split
        · rfl
        · rename_i hname
          rw [List.lookup_cons, beq_false_of_ne]
          rintro rfl
          exact hname hb
      · rw [List.filter_cons_of_pos (by simpa using hb), List.lookup_cons, List.lookup_cons, ih]
        cases hbeq : name == b.1 with
        | true => simp [eq_of_beq hbeq, hb]
        | false => rfl

theorem lookup_bind (bindings : Bindings) (name : String) (e : Expr) (other : String) :
    (bindings.bind name e).lookup other =
      if other = name then some e else bindings.lookup other := by
  rw [bind, List.lookup_cons, lookup_without]
  by_cases heq : other = name
  · rw [heq, beq_self_eq_true, if_pos rfl]
  · rw [beq_false_of_ne heq, if_neg heq, if_neg (by simpa using heq)]

theorem lookup_eq_none {bindings : Bindings} {name : String} (h : name ∉ bindings.map (·.1)) :
    bindings.lookup name = none := by
  refine List.lookup_eq_none_iff.2 fun b hb => ?_
  rw [bne_iff_ne]
  rintro rfl
  exact h (List.mem_map_of_mem hb)

theorem notMem_of_mem_without {bindings : Bindings} {names : List String} {name : String}
    (h : name ∈ names) : name ∉ (bindings.without names).map (·.1) := by
  intro hmem
  obtain ⟨b, hb, rfl⟩ := List.mem_map.1 hmem
  exact absurd h (by simpa using (List.mem_filter.1 hb).2)

theorem mem_freeNames_of_lookup {bindings : Bindings} {name other : String} {a : Expr}
    (h : bindings.lookup name = some a) (hother : other ∈ a.freeOccurrences []) :
    other ∈ bindings.freeNames := by
  obtain ⟨front, back, rfl, -⟩ := List.lookup_eq_some_iff.1 h
  refine List.mem_flatMap.2 ⟨(name, a), by simp, ?_⟩
  exact List.mem_eraseDups.2 hother

end Expr.Bindings

section

variable {S : Setting}

theorem Expr.Avoids.typed {bindings : Expr.Bindings} {p : Pattern} {body : Expr}
    {names : List (String × String)} (h : Expr.Avoids bindings p body names) {L L' B : Naming}
    {s t : Ty} (hp : p.Fits S.registry.data .empty s B) (hbody : Typed S (L.over B) body t)
    (hL : ∀ name, name ∉ p.vars → L' name = L name) :
    ∃ B', (p.rename names).Fits S.registry.data .empty s B' ∧
      Typed S (L'.over B') (body.rename names) t ∧
      ∀ name u, B' name = some u → name ∉ bindings.map (·.1) ∧ name ∉ bindings.freeNames := by
  have hfits := hp.rename (fun _ => id) h.injective
  rw [Naming.through_empty] at hfits
  refine ⟨_, hfits, hbody.rename (fun z hz => ?_) fun z hz => ?_, fun name u hname => ?_⟩
  · by_cases hvar : z ∈ p.vars
    · have hthrough := Naming.through_renamed B h.injective hvar
      cases hB : B z with
      | none => exact absurd hvar ((hp.eq_none_iff z).1 hB)
      | some u =>
          rw [hB] at hthrough
          simp [Naming.over_of_some hB, Naming.over_of_some hthrough]
    · -- no variable of the case gets a name that its body mentions
      have hthrough : B.through names p.vars z = none := by
        refine Naming.through_eq_none B fun z' hz' heq => ?_
        rcases h.fresh z' hz' with hsame | ⟨hnot, -⟩
        · rw [← heq, hsame] at hvar
          exact hvar hz'
        · exact hnot (heq ▸ hz)
      rw [h.other z hvar, Naming.over_of_none ((hp.eq_none_iff z).2 hvar),
        Naming.over_of_none hthrough, hL z hvar]
      exact ⟨fun _ => id, fun hnone => ⟨rfl, hnone⟩⟩
  · by_cases hvar : z ∈ p.vars
    · exact (h.fresh z hvar).imp_right (·.1)
    · exact .inl (h.other z hvar)
  · obtain ⟨z, hz, rfl, -⟩ := Naming.exists_of_through hname
    exact ⟨h.bound z hz, h.free z hz⟩

mutual

theorem Typed.substitute {e : Expr} {bindings : Expr.Bindings} {L L' : Naming} {t : Ty}
    (h : Typed S L e t) (hbindings : Supplies S L' bindings L) :
    Typed S L' (e.substitute bindings) t := by
  match e with
  | .blank => cases h
  | .const value =>
      cases h
      rw [Expr.substitute]
      exact .const
  | .object name =>
      rw [Expr.substitute]
      cases h with
      | bound hlocal hinstance =>
          obtain ⟨a, hlookup, ha⟩ | ⟨hlookup, hlocal⟩ := hbindings.bound name _ hlocal
          · rw [hlookup]
            exact ha _ hinstance
          · rw [hlookup]
            exact .bound hlocal hinstance
      | defined hlocal hdefined hinstance =>
          obtain ⟨hlookup, hlocal⟩ := hbindings.other name hlocal
          rw [hlookup]
          exact .defined hlocal hdefined hinstance
      | constant hlocal hplain hbuilds =>
          obtain ⟨hlookup, hlocal⟩ := hbindings.other name hlocal
          rw [hlookup]
          exact .constant hlocal hplain hbuilds
      | free hlocal hdefined hopen hfree =>
          obtain ⟨hlookup, hlocal⟩ := hbindings.other name hlocal
          rw [hlookup]
          exact .free hlocal hdefined hopen hfree
  | .operation name args =>
      rw [Expr.substitute]
      cases h with
      | construction hargs hplain hbuilds =>
          exact .construction (hargs.substitute hbindings) hplain hbuilds
      | call hdefined hsized hargs hinstance =>
          have hargs' := hargs.substitute hbindings
          refine .call hdefined ?_ hargs' hinstance
          rw [← hargs'.length_eq, hargs.length_eq]
          exact hsized
  | .matching scrutinee cases =>
      rw [Expr.substitute]
      cases h with
      | matching hscrutinee hcases =>
          exact .matching (hscrutinee.substitute hbindings) (hcases.substitute hbindings)
termination_by e.size
decreasing_by all_goals simp only [Expr.size]; omega

theorem TypedList.substitute {es : List Expr} {bindings : Expr.Bindings} {L L' : Naming}
    {ts : List Ty} (h : TypedList S L es ts) (hbindings : Supplies S L' bindings L) :
    TypedList S L' (Expr.substituteList bindings es) ts := by
  match es with
  | [] =>
      cases h
      rw [Expr.substituteList]
      exact .nil
  | e :: es =>
      rw [Expr.substituteList]
      cases h with
      | cons he hes => exact .cons (he.substitute hbindings) (hes.substitute hbindings)
termination_by Expr.sizeList es
decreasing_by all_goals simp only [Expr.sizeList]; omega

theorem TypedCases.substitute {cases : List (Pattern × Expr)} {bindings : Expr.Bindings}
    {L L' : Naming} {s t : Ty} (h : TypedCases S L s cases t)
    (hbindings : Supplies S L' bindings L) :
    TypedCases S L' s (Expr.substituteCases bindings cases) t := by
  match cases with
  | [] =>
      cases h
      rw [Expr.substituteCases]
      exact .nil
  | (p, body) :: rest =>
      rw [Expr.substituteCases]
      obtain ⟨names, havoids, heq⟩ := Expr.avoidCapture_eq (bindings.without p.vars) body
        fun z => Expr.Bindings.notMem_of_mem_without
      rw [heq]
      cases h with
      | @cons _ B _ _ _ _ _ hp hbody hcases =>
          -- the names that the case had before are not mentioned in it any more
          obtain ⟨B', hp', hbody', hB'⟩ := havoids.typed hp hbody
            fun name hname => (if_neg hname : (if name ∈ p.vars then L' name else L name) = L name)
          refine .cons hp' (hbody'.substitute ⟨fun name u hu => ?_, fun name hname => ?_⟩)
            (hcases.substitute hbindings)
          · cases hname : B' name with
            | some u' =>
                rw [Naming.over_of_some hname] at hu
                refine .inr ⟨?_, by rw [Naming.over_of_some hname, hu]⟩
                exact Expr.Bindings.lookup_eq_none (hB' name u' hname).1
            | none =>
                rw [Naming.over_of_none hname] at hu ⊢
                rw [Expr.Bindings.lookup_without]
                split at hu
                · rename_i hvar
                  exact .inr ⟨if_pos hvar, hu⟩
                · rename_i hvar
                  rw [if_neg hvar]
                  obtain ⟨a, hlookup, ha⟩ | hlocal := hbindings.bound name u hu
                  · refine .inl ⟨a, hlookup, fun v hv => (ha v hv).congr
                      (fun other (hother : other ∈ a.freeOccurrences []) => ?_)
                      fun _ h => absurd h List.not_mem_nil⟩
                    have hB : B' other = none := Option.eq_none_iff_forall_ne_some.2 fun w hw =>
                      (hB' other w hw).2 (Expr.Bindings.mem_freeNames_of_lookup
                        (by rw [Expr.Bindings.lookup_without, if_neg hvar, hlookup]) hother)
                    rw [Naming.over_of_none hB]
                  · exact .inr hlocal
          · have hB : B' name = none := (Option.or_eq_none_iff.1 hname).1
            rw [Naming.over_of_none hB] at hname ⊢
            rw [Expr.Bindings.lookup_without]
            split at hname
            · rename_i hvar
              exact ⟨if_pos hvar, hname⟩
            · rename_i hvar
              rw [if_neg hvar]
              exact hbindings.other name hname
termination_by Expr.sizeCases cases
decreasing_by
  · simp only [Expr.sizeCases, Expr.size_rename]
    omega
  · simp only [Expr.sizeCases]
    omega

end

end

namespace Evaluation

theorem mem_of_definition? {defs : List Definition} {name : String} {d : Definition}
    (h : definition? defs name = some d) : d ∈ defs ∧ d.name = name := by
  have hmem := List.mem_filter.1 (List.mem_of_getLast? h)
  exact ⟨hmem.1, of_decide_eq_true hmem.2⟩

theorem definition?_of_mem {defs : List Definition} (hnodup : (defs.map (·.name)).Nodup)
    {d : Definition} (hd : d ∈ defs) : definition? defs d.name = some d := by
  have hmem : d ∈ defs.filter (·.name = d.name) := List.mem_filter.2 ⟨hd, by simp⟩
  have hlast := List.getLast?_eq_some_getLast (List.ne_nil_of_mem hmem)
  obtain ⟨hd', hname⟩ := mem_of_definition? (show definition? defs d.name = _ from hlast)
  rw [definition?, hlast, List.inj_on_of_nodup_map hnodup hd' hd hname]

/-- A call of a definition with an argument for each parameter is expanded. -/
theorem expand?_eq_some_iff {defs : List Definition} {name : String} {args : List Expr}
    {body : Expr} : expand? defs name args = some body ↔ ∃ d, definition? defs name = some d ∧
      d.params.length = args.length ∧ d.body.substitute (arguments d args) = body := by
  unfold expand?
  cases definition? defs name with
  | none => simp
  | some d => simp

end Evaluation

namespace Expr

mutual

/-- Whether an expression holds neither a match nor a call that is expanded. -/
def isNormal (defs : List Definition) : Expr → Bool
  | .blank | .matching _ _ => false
  | .const _ => true
  | .object name => (Evaluation.expand? defs name []).isNone
  | .operation name args => (Evaluation.expand? defs name args).isNone && isNormalList defs args

def isNormalList (defs : List Definition) : List Expr → Bool
  | [] => true
  | e :: es => e.isNormal defs && isNormalList defs es

end

end Expr

theorem DataTypes.Builds.unique {r : DataTypes} {name : String} {ts us : List Ty} {t : Ty}
    (h : r.Builds name ts t) (h' : r.Builds name us t) : ts = us := by
  cases h with
  | ofMeta hvariant howner hfields =>
      obtain ⟨-, heq⟩ := (builds_iff_of_meta hvariant howner).1 h'
      simpa [Ty.variant] using heq
  | ofData hvariant howner hlength hmono hfields =>
      obtain ⟨params, -, -, hfields', heq⟩ := (builds_iff_of_data hvariant howner).1 h'
      obtain rfl : _ = params := by simpa [Ty.instanceOf] using heq
      refine List.right_unique_forall₂' (fun f t u ht hu => ?_) hfields hfields'
      exact Except.ok.inj (ht.symm.trans hu)

/-- What evaluation relies on: nothing else goes by the name of a definition, and what variables may
stand for are monotypes. -/
structure Setting.Regular (S : Setting) (defs : List Definition) : Prop where
  apart : ∀ d ∈ defs, S.registry.data.variant? d.name = none ∧ S.free d.name = none
  separate : ∀ name scheme, S.schemes name = some scheme → S.registry.data.variant? name = none
  schemes : ∀ name scheme, S.schemes name = some scheme → scheme.unquantify.2.isMono = true
  free : S.free.IsMono

section

variable {S : Setting} {defs : List Definition}

/-- A value has a monotype. -/
theorem Typed.isMono (hS : S.Regular defs) {value : Expr} (hvalue : value.isNormal defs = true) {t : Ty}
    (h : Typed S .empty value t) : t.isMono = true := by
  cases h with
  | const => rfl
  | bound hname => cases hname
  | defined _ hname hinstance => exact hinstance.isMono (hS.schemes _ _ hname)
  | constant _ _ hbuilds => exact hbuilds.isMono
  | free _ _ _ hfree => exact hS.free _ _ hfree
  | construction _ _ hbuilds => exact hbuilds.isMono
  | call hname _ _ hinstance =>
      have hmono := hinstance.isMono (hS.schemes _ _ hname)
      exact ((Ty.within_curry (F := fun _ => True)).1 ⟨hmono, fun _ _ => trivial⟩).2.1
  | matching => cases hvalue

theorem Supplies.bind {bindings : Expr.Bindings} {B : Naming}
    (h : Supplies S .empty bindings B) (hS : S.Regular defs) {value : Expr}
    (hvalue : value.isNormal defs = true) {t : Ty} (ht : Typed S .empty value t) (name : String) :
    Supplies S .empty (bindings.bind name value) (Function.update B name (some t)) := by
  refine ⟨fun other u hu => ?_, fun other hother => ?_⟩
  · rw [Expr.Bindings.lookup_bind]
    by_cases heq : other = name
    · subst heq
      obtain rfl : t = u := by simpa using hu
      refine .inl ⟨value, if_pos rfl, fun v hv => ?_⟩
      rw [(Ty.instance_iff_eq (ht.isMono hS hvalue)).1 hv]
      exact ht
    · rw [Function.update_of_ne heq] at hu
      rw [if_neg heq]
      exact h.bound other u hu
  · rw [Expr.Bindings.lookup_bind]
    by_cases heq : other = name
    · subst heq
      simp at hother
    · rw [Function.update_of_ne heq] at hother
      rw [if_neg heq]
      exact h.other other hother

theorem supplies_empty : Supplies S .empty [] .empty where
  bound _ _ h := by cases h
  other _ _ := ⟨rfl, rfl⟩

theorem Pattern.matchInto_const {literal : String} {value : Expr}
    {bindings bindings' : Expr.Bindings}
    (h : (Pattern.const literal).matchInto bindings value = some bindings') :
    bindings' = bindings := by
  cases value with
  | const value =>
      rw [matchInto] at h
      split at h
      · cases h
        rfl
      · cases h
  | blank | object | operation | matching => cases h

theorem Pattern.matchInto_constructor {name : String} {args : List Pattern} {value : Expr}
    {bindings bindings' : Expr.Bindings}
    (h : (Pattern.constructor name args).matchInto bindings value = some bindings') :
    args = [] ∧ value = .object name ∧ bindings' = bindings ∨
      ∃ values, value = .operation name values ∧
        matchListInto bindings args values = some bindings' := by
  cases value with
  | object other =>
      cases args with
      | nil =>
          rw [matchInto] at h
          split at h
          · rename_i hname
            cases h
            exact .inl ⟨rfl, hname ▸ rfl, rfl⟩
          · cases h
      | cons p ps => cases h
  | operation other values =>
      rw [matchInto] at h
      split at h
      · rename_i hname
        exact .inr ⟨values, hname ▸ rfl, h⟩
      · cases h
  | blank | const | matching => cases args <;> cases h

mutual

/-- What a pattern binds in a value that it matches has the types of its variables. -/
theorem Supplies.matchInto (hS : S.Regular defs) {p : Pattern} {value : Expr} {t : Ty}
    {bindings bindings' : Expr.Bindings} {B B' : Naming} (h : Supplies S .empty bindings B)
    (hp : p.Fits S.registry.data B t B') (ht : Typed S .empty value t)
    (hvalue : value.isNormal defs = true) (hmatch : p.matchInto bindings value = some bindings') :
    Supplies S .empty bindings' B' := by
  cases p with
  | wildcard =>
      cases hp
      cases hmatch
      exact h
  | var name =>
      cases hp
      cases hmatch
      exact h.bind hS hvalue ht name
  | const literal =>
      cases hp
      rw [Pattern.matchInto_const hmatch]
      exact h
  | constructor name args =>
      cases hp with
      | constructor hbuilds hargs =>
          obtain ⟨rfl, rfl, rfl⟩ | ⟨values, rfl, hlist⟩ := Pattern.matchInto_constructor hmatch
          · cases hargs with
            | nil => exact h
          · rw [Expr.isNormal, Bool.and_eq_true] at hvalue
            cases ht with
            | construction hvalues _ hbuilds' =>
                obtain rfl := hbuilds.unique hbuilds'
                exact h.matchListInto hS hargs hvalues hvalue.2 hlist
            | call hname => exact absurd (hS.separate _ _ hname) hbuilds.ne_none

theorem Supplies.matchListInto (hS : S.Regular defs) {ps : List Pattern} {values : List Expr}
    {ts : List Ty} {bindings bindings' : Expr.Bindings} {B B' : Naming}
    (h : Supplies S .empty bindings B) (hps : Pattern.FitsList S.registry.data B ps ts B')
    (hts : TypedList S .empty values ts) (hvalues : Expr.isNormalList defs values = true)
    (hmatch : Pattern.matchListInto bindings ps values = some bindings') :
    Supplies S .empty bindings' B' := by
  match ps, values with
  | [], [] =>
      cases hps
      cases hmatch
      exact h
  | [], _ :: _ => cases hmatch
  | _ :: _, [] => cases hmatch
  | p :: ps, value :: values =>
      rw [Expr.isNormalList, Bool.and_eq_true] at hvalues
      rw [Pattern.matchListInto] at hmatch
      cases hps with
      | cons hp hps =>
          cases hts with
          | cons ht hts =>
              split at hmatch
              · rename_i bindings₁ hfirst
                exact (h.matchInto hS hp ht hvalues.1 hfirst).matchListInto hS hps hts hvalues.2 hmatch
              · cases hmatch

end

theorem Supplies.selectFrom? (hS : S.Regular defs) {value : Expr} {index i : Nat}
    {cases : List (Pattern × Expr)} {s t : Ty} {bindings : Expr.Bindings} {body : Expr}
    (hvalue : value.isNormal defs = true) (hs : Typed S .empty value s)
    (hcases : TypedCases S .empty s cases t)
    (h : value.selectFrom? index cases = some (i, bindings, body)) :
    ∃ B, Supplies S .empty bindings B ∧ Typed S B body t := by
  induction cases generalizing index with
  | nil => cases h
  | cons c rest ih =>
      obtain ⟨p, body'⟩ := c
      cases hcases with
      | @cons _ B _ _ _ _ _ hp hbody hcases =>
          rw [Expr.selectFrom?] at h
          split at h
          · rename_i bindings' hmatch
            cases h
            rw [Naming.empty_over] at hbody
            exact ⟨B, supplies_empty.matchInto hS hp hs hvalue hmatch, hbody⟩
          · exact ih hcases h

/-- The types of the parameters of a definition, of two of one name that of the later. -/
def Definition.paramTypes (d : Definition) (ts : List Ty) : Naming :=
  (d.paramNames.zip ts).foldl (fun B (name, t) => Function.update B name (some t)) .empty

/-- The body of a definition has every type that a scheme says it has. -/
def Definition.HasScheme (d : Definition) (S : Setting) (scheme : Ty) : Prop :=
  ∀ ts t, ts.length = d.params.length → scheme.Instance (Ty.curry ts t) →
    Typed S (d.paramTypes ts) d.body t

/-- Every definition whose name has a scheme has that scheme. -/
def Setting.Defines (S : Setting) (defs : List Definition) : Prop :=
  ∀ d ∈ defs, ∀ scheme, S.schemes d.name = some scheme → d.HasScheme S scheme

theorem Supplies.bindAll (hS : S.Regular defs) {args : List Expr} {ts : List Ty} {names : List String}
    {bindings : Expr.Bindings} {B : Naming} (h : Supplies S .empty bindings B)
    (hts : TypedList S .empty args ts) (hargs : Expr.isNormalList defs args = true) :
    Supplies S .empty
      ((names.zip args).foldl (fun bindings (name, arg) => bindings.bind name arg) bindings)
      ((names.zip ts).foldl (fun B (name, t) => Function.update B name (some t)) B) := by
  match names, args with
  | [], _ => exact h
  | _ :: _, [] =>
      cases hts
      exact h
  | name :: names, arg :: args =>
      rw [Expr.isNormalList, Bool.and_eq_true] at hargs
      cases hts with
      | cons ht hts => exact (h.bind hS hargs.1 ht name).bindAll hS hts hargs.2

namespace Evaluation

theorem typed_of_expand? (hS : S.Regular defs) (hdefs : S.Defines defs) {name : String} {scheme t : Ty}
    {args : List Expr} {ts : List Ty} {body : Expr} (hname : S.schemes name = some scheme)
    (hts : TypedList S .empty args ts) (hargs : Expr.isNormalList defs args = true)
    (hinstance : scheme.Instance (Ty.curry ts t)) (h : expand? defs name args = some body) :
    Typed S .empty body t := by
  obtain ⟨d, hdefinition, hlength, rfl⟩ := expand?_eq_some_iff.1 h
  obtain ⟨hd, rfl⟩ := mem_of_definition? hdefinition
  refine (hdefs d hd scheme hname ts t (hts.length_eq.trans hlength.symm) hinstance).substitute ?_
  exact supplies_empty.bindAll hS hts hargs

theorem apart_of_expand? (hS : S.Regular defs) {name : String} {args : List Expr} {body : Expr}
    (h : expand? defs name args = some body) :
    S.registry.data.variant? name = none ∧ S.free name = none := by
  obtain ⟨d, hdefinition, -, -⟩ := expand?_eq_some_iff.1 h
  obtain ⟨hd, rfl⟩ := mem_of_definition? hdefinition
  exact hS.apart d hd

/-- The value of an expression is one that is evaluated to the end, and has its type. -/
abbrev ValueOf (S : Setting) (defs : List Definition) (t : Ty) (value : Expr) : Prop :=
  value.isNormal defs = true ∧ Typed S .empty value t

variable {deeper : Expr → Except Fault Expr}

mutual

theorem evalWith_typed (hS : S.Regular defs) (hdefs : S.Defines defs)
    (hdeeper : ∀ e t, Typed S .empty e t → Ends (ValueOf S defs t) (fun _ => True) (deeper e))
    {e : Expr} {t : Ty} (h : Typed S .empty e t) :
    Ends (ValueOf S defs t) (fun _ => True) (evalWith defs deeper e) := by
  cases e with
  | blank => cases h
  | const value => exact ⟨rfl, h⟩
  | object name =>
      rw [evalWith]
      split
      · rename_i body hbody
        obtain ⟨hvariant, hfree⟩ := apart_of_expand? hS hbody
        cases h with
        | bound hlocal => cases hlocal
        | defined _ hname hinstance =>
            exact hdeeper _ _ (typed_of_expand? hS hdefs hname .nil rfl hinstance hbody)
        | constant _ _ hbuilds => exact absurd hvariant hbuilds.ne_none
        | free _ _ _ hname => cases hfree.symm.trans hname
      · rename_i hnone
        exact ⟨Option.isNone_iff_eq_none.2 hnone, h⟩
  | operation name args =>
      rw [evalWith]
      cases h with
      | construction hargs hplain hbuilds =>
          refine (evalListWith_typed hS hdefs hdeeper hargs).bind fun values ⟨hnormal, hvalues⟩ => ?_
          split
          · rename_i body hbody
            exact absurd (apart_of_expand? hS hbody).1 hbuilds.ne_none
          · rename_i hnone
            exact ⟨Bool.and_eq_true_iff.2 ⟨Option.isNone_iff_eq_none.2 hnone, hnormal⟩,
              .construction hvalues hplain hbuilds⟩
      | call hname hsized hargs hinstance =>
          refine (evalListWith_typed hS hdefs hdeeper hargs).bind fun values ⟨hnormal, hvalues⟩ => ?_
          split
          · rename_i body hbody
            exact hdeeper _ _ (typed_of_expand? hS hdefs hname hvalues hnormal hinstance hbody)
          · rename_i hnone
            refine ⟨Bool.and_eq_true_iff.2 ⟨Option.isNone_iff_eq_none.2 hnone, hnormal⟩,
              .call hname ?_ hvalues hinstance⟩
            rw [← hvalues.length_eq, hargs.length_eq]
            exact hsized
  | matching scrutinee cases =>
      rw [evalWith]
      cases h with
      | matching hscrutinee hcases =>
          refine (evalWith_typed hS hdefs hdeeper hscrutinee).bind fun value ⟨hnormal, hvalue⟩ => ?_
          split
          · rename_i i bindings body hselect
            obtain ⟨B, hbindings, hbody⟩ := Supplies.selectFrom? hS hnormal hvalue hcases hselect
            exact hdeeper _ _ (hbody.substitute hbindings)
          · trivial

theorem evalListWith_typed (hS : S.Regular defs) (hdefs : S.Defines defs)
    (hdeeper : ∀ e t, Typed S .empty e t → Ends (ValueOf S defs t) (fun _ => True) (deeper e))
    {es : List Expr} {ts : List Ty} (h : TypedList S .empty es ts) :
    Ends (fun values => Expr.isNormalList defs values = true ∧ TypedList S .empty values ts)
      (fun _ => True) (evalListWith defs deeper es) := by
  match es with
  | [] => exact ⟨rfl, h⟩
  | e :: es =>
      rw [evalListWith]
      cases h with
      | cons he hes =>
          refine (evalWith_typed hS hdefs hdeeper he).bind fun value ⟨hnormal, hvalue⟩ => ?_
          refine (evalListWith_typed hS hdefs hdeeper hes).bind fun values ⟨hnormals, hvalues⟩ => ?_
          exact ⟨Bool.and_eq_true_iff.2 ⟨hnormal, hnormals⟩, .cons hvalue hvalues⟩

end

theorem eval_typed (hS : S.Regular defs) (hdefs : S.Defines defs) {depth : Int} {e value : Expr} {t : Ty}
    (h : Typed S .empty e t) (heval : eval defs depth e = .ok value) : ValueOf S defs t value := by
  have hlevels : ∀ bound levels e t, Typed S .empty e t →
      Ends (ValueOf S defs t) (fun _ => True) (evalLevels defs bound levels e) := by
    intro bound levels
    induction levels with
    | zero => exact fun _ _ _ => trivial
    | succ levels ih => exact fun e t h => evalWith_typed hS hdefs ih h
  have hends := hlevels (depthBound depth) (depthBound depth + 1) e t h
  rwa [show evalLevels defs (depthBound depth) (depthBound depth + 1) e = .ok value from heval] at hends

end Evaluation

end

end Formulary
