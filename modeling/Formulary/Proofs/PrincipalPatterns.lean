import Formulary.Proofs.Completeness
import Formulary.Proofs.Usefulness

namespace Formulary

namespace Ty

mutual

/-- What is put for a variable of a monotype is one if the result is. -/
theorem isMono_of_isMono_bind {f : Int → Ty} {t : Ty} (h : (t.bind f).isMono = true) {x : Int}
    (hx : x ∈ t.freeOccurrences) (ht : t.isMono = true) : (f x).isMono = true := by
  match t with
  | .blank | .prim _ | .nat _ | .tag _ => simp [freeOccurrences] at hx
  | .var id =>
      obtain rfl : x = id := by simpa [freeOccurrences] using hx
      exact h
  | .data name constructor args => exact isMono_of_isMonoList_bindList h hx ht
  | .fn a b =>
      simp only [bind, isMono, Bool.and_eq_true] at h ht
      simp only [freeOccurrences, List.mem_append] at hx
      rcases hx with hx | hx
      · exact isMono_of_isMono_bind h.1 hx ht.1
      · exact isMono_of_isMono_bind h.2 hx ht.2
  | .poly id body => cases ht

theorem isMono_of_isMonoList_bindList {f : Int → Ty} {ts : List Ty}
    (h : isMonoList (bindList f ts) = true) {x : Int} (hx : x ∈ freeOccurrencesList ts)
    (hts : isMonoList ts = true) : (f x).isMono = true := by
  match ts with
  | [] => simp [freeOccurrencesList] at hx
  | t :: ts =>
      simp only [bindList, isMonoList, Bool.and_eq_true] at h hts
      simp only [freeOccurrencesList, List.mem_append] at hx
      rcases hx with hx | hx
      · exact isMono_of_isMono_bind h.1 hx hts.1
      · exact isMono_of_isMonoList_bindList h.2 hx hts.2

end

end Ty

theorem Subst.exists_image_eq (s : Subst) (f : Int → Ty) (ids : List Int) :
    ∃ s' : Subst, ∀ x, s'.image x = if x ∈ ids then f x else s.image x := by
  induction ids with
  | nil => exact ⟨s, fun x => by simp⟩
  | cons id ids ih =>
      obtain ⟨s', hs'⟩ := ih
      refine ⟨s'.insert id (f id), fun x => ?_⟩
      rw [image, SortedMap.get?_insert]
      by_cases hx : id = x
      · subst hx
        simp
      · rw [if_neg hx]
        simpa [image, Ne.symm hx] using hs' x

/-- The numbers from one up to another. -/
def Supply.handedOut (u u' : Supply) : List Int :=
  (List.range (u'.next - u.next).toNat).map fun i : Nat => u.next + i

theorem Supply.mem_handedOut {u u' : Supply} {x : Int} :
    x ∈ u.handedOut u' ↔ u.next ≤ x ∧ x < u'.next := by
  simp only [handedOut, List.mem_map, List.mem_range]
  constructor
  · rintro ⟨i, hi, rfl⟩
    omega
  · intro h
    exact ⟨(x - u.next).toNat, by omega, by omega⟩

namespace Pattern

variable {r : DataTypes} {Γ : Naming}

mutual

/-- A pattern is one for values of a type, where its variables have the types of a naming. -/
inductive IsFor (r : DataTypes) (Γ : Naming) : Pattern → Ty → Prop
  | wildcard {t : Ty} : IsFor r Γ .wildcard t
  | var {name : String} {t : Ty} (hname : Γ name = some t) : IsFor r Γ (.var name) t
  | const {value : String} : IsFor r Γ (.const value) .scalar
  | constructor {name : String} {args : List Pattern} {ts : List Ty} {t : Ty}
      (hbuilds : r.Builds name ts t) (hargs : IsForList r Γ args ts) :
      IsFor r Γ (.constructor name args) t

inductive IsForList (r : DataTypes) (Γ : Naming) : List Pattern → List Ty → Prop
  | nil : IsForList r Γ [] []
  | cons {p : Pattern} {ps : List Pattern} {t : Ty} {ts : List Ty} (hp : IsFor r Γ p t)
      (hps : IsForList r Γ ps ts) : IsForList r Γ (p :: ps) (t :: ts)

end

/-- Only a variable and the wildcard are patterns for values of what is no monotype. -/
theorem IsFor.isMono {p : Pattern} {t : Ty} (h : p.IsFor r Γ t) (hp : p.isIrrefutable = false) :
    t.isMono = true := by
  cases h with
  | wildcard => cases hp
  | var => cases hp
  | const => rfl
  | constructor hbuilds => exact hbuilds.isMono

mutual

/-- Only the variables of a pattern matter. -/
theorem IsFor.congr {Γ' : Naming} {p : Pattern} {t : Ty} (h : p.IsFor r Γ t)
    (hsame : ∀ name ∈ p.vars, Γ name = Γ' name) : p.IsFor r Γ' t := by
  cases h with
  | wildcard => exact .wildcard
  | @var name t hname => exact .var (hsame name (by simp [vars]) ▸ hname)
  | const => exact .const
  | constructor hbuilds hargs => exact .constructor hbuilds (hargs.congr hsame)

theorem IsForList.congr {Γ' : Naming} {ps : List Pattern} {ts : List Ty} (h : IsForList r Γ ps ts)
    (hsame : ∀ name ∈ varsList ps, Γ name = Γ' name) : IsForList r Γ' ps ts := by
  cases h with
  | nil => exact .nil
  | cons hp hps =>
      obtain ⟨hfirst, hrest⟩ := List.forall_mem_append.1 hsame
      exact .cons (hp.congr hfirst) (hps.congr hrest)

end

/-- What is bound when the patterns to the left have bound `B`. -/
def bound (vars : List String) (Γ B : Naming) : Naming := fun name =>
  if name ∈ vars then Γ name else B name

mutual

/-- A pattern without repeated variables that is one for a type is one for its values when it is read
from left to right. -/
theorem IsFor.fits {B : Naming} {p : Pattern} {t : Ty} (h : p.IsFor r Γ t) (hp : p.vars.Nodup)
    (hnew : ∀ name ∈ p.vars, B name = none) : p.Fits r B t (bound p.vars Γ B) := by
  cases h with
  | wildcard => exact .wildcard
  | const => exact .const
  | @var name t hname =>
      have hbound : bound (Pattern.var name).vars Γ B = Function.update B name (some t) := by
        funext other
        rw [bound, Function.update_apply]
        by_cases heq : other = name
        · rw [if_pos (by simpa [vars] using heq), if_pos heq, heq, hname]
        · rw [if_neg (by simpa [vars] using heq), if_neg heq]
      rw [hbound]
      exact .var (hnew name (by simp [vars]))
  | constructor hbuilds hargs => exact .constructor hbuilds (hargs.fits hp hnew)

theorem IsForList.fits {B : Naming} {ps : List Pattern} {ts : List Ty} (h : IsForList r Γ ps ts)
    (hps : (varsList ps).Nodup) (hnew : ∀ name ∈ varsList ps, B name = none) :
    FitsList r B ps ts (bound (varsList ps) Γ B) := by
  cases h with
  | nil => exact .nil
  | @cons p ps t ts hp hrest =>
      obtain ⟨hfirst, hlater, hapart⟩ := List.nodup_append'.1 hps
      obtain ⟨hnewFirst, hnewLater⟩ := List.forall_mem_append.1 hnew
      have hbound : bound (varsList (p :: ps)) Γ B =
          bound (varsList ps) Γ (bound p.vars Γ B) := by
        funext name
        simp only [bound, varsList, List.mem_append]
        grind
      rw [hbound]
      refine .cons (hp.fits hfirst hnewFirst) (hrest.fits hlater fun name hname => ?_)
      rw [bound, if_neg fun hmem => hapart hmem hname, hnewLater name hname]

end

mutual

/-- A pattern that has been read from left to right repeats no variable and is one for the type. -/
theorem Fits.isFor {B B' : Naming} {p : Pattern} {t : Ty} (h : p.Fits r B t B') :
    p.IsFor r B' t ∧ p.vars.Nodup ∧ (∀ name ∈ p.vars, B name = none) ∧
      ∀ name, name ∉ p.vars → B' name = B name := by
  cases h with
  | wildcard => exact ⟨.wildcard, .nil, by simp [vars], fun _ _ => rfl⟩
  | const => exact ⟨.const, .nil, by simp [vars], fun _ _ => rfl⟩
  | var hnew =>
      refine ⟨.var (Function.update_self ..), List.nodup_singleton _, ?_, fun name hname => ?_⟩
      · simpa [vars] using hnew
      · exact Function.update_of_ne (by simpa [vars] using hname) ..
  | constructor hbuilds hargs =>
      obtain ⟨hfor, hrest⟩ := hargs.isFor
      exact ⟨.constructor hbuilds hfor, hrest⟩

theorem FitsList.isFor {B B' : Naming} {ps : List Pattern} {ts : List Ty}
    (h : FitsList r B ps ts B') :
    IsForList r B' ps ts ∧ (varsList ps).Nodup ∧ (∀ name ∈ varsList ps, B name = none) ∧
      ∀ name, name ∉ varsList ps → B' name = B name := by
  cases h with
  | nil => exact ⟨.nil, .nil, by simp [varsList], fun _ _ => rfl⟩
  | @cons _ B₁ _ p ps t ts hp hps =>
      obtain ⟨hfirst, hnodup, hnew, hother⟩ := hp.isFor
      obtain ⟨hrest, hnodupRest, hnewRest, hotherRest⟩ := hps.isFor
      -- what the first pattern binds, the others do not bind again
      have hapart : ∀ name ∈ p.vars, name ∉ varsList ps := by
        intro name hname hmem
        have hsome := (hp.isSome_iff name).2 (.inl hname)
        rw [hnewRest name hmem] at hsome
        cases hsome
      refine ⟨.cons (hfirst.congr fun name hname => ?_) hrest, ?_, ?_, fun name hname => ?_⟩
      · exact (hotherRest name (hapart name hname)).symm
      · exact List.nodup_append'.2 ⟨hnodup, hnodupRest, hapart⟩
      · refine List.forall_mem_append.2 ⟨hnew, fun name hname => ?_⟩
        rw [← hother name fun hmem => hapart name hmem hname]
        exact hnewRest name hname
      · simp only [varsList, List.mem_append, not_or] at hname
        rw [hotherRest name hname.2, hother name hname.1]

end

theorem Typing.exists_require {t : Typing} {expected actual : Ty} {n : Int} {θ : Valuation}
    {D : Naming} (ht : t.inScope n) (he : expected.inScope n) (hactual : actual.isMono = true)
    (hθ : t.Admits θ D) (hsame : expected.bind θ = actual.bind θ) :
    ∃ t', t.require expected actual = .ok t' := by
  have hexpected := Subst.within_apply ht.subst he
  rw [← hθ.2.bind_apply he.1] at hsame
  obtain ⟨found, hunify⟩ := Ty.exists_unify_eq_ok hexpected.1 hactual hsame
  exact ⟨{ t with subst := t.subst.compose found }, by rw [require, hunify]⟩

theorem grows_checkListAfter (t : Typing) (ps : List Pattern) (fields : List Ty) (u : Supply) :
    u ≤ (Attempt.outcome (checkListAfter r t ps fields) u).2 :=
  (checkListAfter_keeps (P := ⊤) (F := fun _ => True) r (fun _ _ => trivial) t ps fields).grows u

theorem le_of_require_bind (t : Typing) (expected actual : Ty) (f : Typing → Fresh Typing)
    (u : Supply) (hf : ∀ t', u ≤ (Attempt.outcome (f t') u).2) :
    u ≤ (Attempt.outcome (liftM (t.require expected actual) >>= f) u).2 := by
  rw [Attempt.outcome_bind, Attempt.outcome_liftExcept]
  cases t.require expected actual with
  | ok t' => exact hf t'
  | error e => exact le_rfl

theorem unwrapped_of_bind {α β : Type} {m : Fresh α} {f : α → Fresh β} {u u₁ : Supply} {a : α}
    (hfirst : Attempt.Returns m u a u₁)
    (hu : (Attempt.outcome (m >>= f) u).2.Unwrapped) :
    (Attempt.outcome (f a) u₁).2.Unwrapped := by
  rwa [Attempt.outcome_bind, hfirst] at hu

mutual

theorem checkAfter_succeeds {t : Typing} {p : Pattern} {expected : Ty} {u : Supply}
    (hu : (Attempt.outcome (checkAfter r t p expected) u).2.Unwrapped) (ht : t.inScope u.next)
    (he : expected.inScope u.next) {θ : Valuation} {D B : Naming} (hθ : t.Admits θ D)
    (hfits : p.Fits r (t.bindings.under θ) (expected.bind θ) B) :
    ∃ t' u', Attempt.Returns (checkAfter r t p expected) u t' u' := by
  cases p with
  | wildcard => exact ⟨t, u, rfl⟩
  | var name =>
      have hnew : (t.bindings.get? name).isSome = false := by
        cases hfits with
        | var hnew => simpa [TypeEnv.under] using hnew
      refine ⟨{ t with bindings := t.bindings.insert name expected }, u, ?_⟩
      rw [checkAfter, hnew]
      rfl
  | const value =>
      have hsame : expected.bind θ = Ty.scalar.bind θ := by
        generalize expected.bind θ = s at hfits
        cases hfits
        rfl
      obtain ⟨t', ht'⟩ := Typing.exists_require ht he rfl hθ hsame
      refine ⟨t', u, ?_⟩
      rw [checkAfter, Attempt.Returns, Attempt.outcome_liftExcept, ht']
  | constructor name args =>
      rw [checkAfter] at hu ⊢
      generalize hwhole : expected.bind θ = whole at hfits
      cases hfits with
      | @constructor _ _ _ _ ts _ hbuilds hargs =>
          obtain ⟨v, u₁, hinstance⟩ := DataTypes.returns_instantiate_of_builds hbuilds u
          have hrest := unwrapped_of_bind hinstance hu
          have hu₁ : u₁.Unwrapped := by
            split at hrest
            · exact hrest
            · exact hrest.of_le (le_of_require_bind t expected v.result _ u₁ fun t₁ =>
                grows_checkListAfter t₁ args _ u₁)
          have hle := hu₁.next_le_next (DataTypes.le_of_returns_instantiate hinstance)
          obtain ⟨⟨hscope, hfresh⟩, hfields⟩ := Typing.expecting_of_returns_instantiate
            (F := fun _ => True) hinstance hu₁ (fun _ _ => trivial) ht
          have hresult : t.subst.apply v.result = v.result := by
            rw [Subst.apply_eq_bind]
            exact Ty.bind_eq_self fun x hx => Subst.image_of_get?_eq_none (hfresh.2 x hx).2
          -- the variables of the variant stand for the types of its fields here
          obtain ⟨θ', hagree, hθ', hvalue⟩ := (Typing.explains_of_fresh ht
            ((r.instantiate_finds_of_hasWholeFields name).finds u v u₁ hinstance trivial hu₁
              (DataTypes.hasWholeFields_of_returns hinstance))).complete θ D (ts, whole) hθ hbuilds
          obtain ⟨hts, hbuilt⟩ := Prod.mk.inj hvalue
          have hlength : args.length = v.fields.length := by
            rw [hargs.length_eq, ← hts, List.length_map]
          have ht₁ : t.inScope u₁.next := t.inScope.mono hle ht
          have he₁ : expected.inScope u₁.next := expected.inScope.mono hle he
          have hsame : expected.bind θ' = v.result.bind θ' := by
            rw [hbuilt, ← hagree.bind_eq he, hwhole]
          obtain ⟨t₁, hrequire⟩ := Typing.exists_require ht₁ he₁ hscope.1 hθ' hsame
          obtain ⟨θ'', hagree', hθ'', -⟩ := (Typing.require_explains (m := u₁.next) hrequire ht₁ he₁
            hscope.1 hresult).complete θ' D () hθ' hsame
          have hready := Typing.ready_of_require hrequire (Typing.ready_of_inScope ht₁)
            ⟨he₁, he₁.imp fun _ _ => trivial⟩ ⟨hscope, hfresh⟩
          have hfields : Every Ty.inScope (v.fields.map (·.type)) u₁.next := fun w hw =>
            (hfields w hw).1
          rw [if_neg (by simpa using hlength)] at hrest
          rw [hrequire] at hrest
          have hlater : (Attempt.outcome (checkListAfter r t₁ args (v.fields.map (·.type)))
              u₁).2.Unwrapped := hrest
          have hargs : FitsList r (t₁.bindings.under θ'') args
              ((v.fields.map (·.type)).map (·.bind θ'')) B := by
            rw [← hagree'.map_bind_eq hfields, List.map_map, Typing.require_bindings hrequire,
              ← t.under_bindings_agree ht₁ hagree', ← t.under_bindings_agree ht hagree]
            exact hts ▸ hargs
          obtain ⟨t', u', hrun⟩ := checkListAfter_succeeds hlater hready.1 hfields hθ'' hargs
          refine ⟨t', u', Attempt.returns_bind_iff.2 ⟨v, u₁, hinstance, ?_⟩⟩
          rw [if_neg (by simpa using hlength)]
          exact Attempt.returns_bind_iff.2 ⟨t₁, u₁, hrequire ▸ rfl, hrun⟩

theorem checkListAfter_succeeds {t : Typing} {ps : List Pattern} {fields : List Ty} {u : Supply}
    (hu : (Attempt.outcome (checkListAfter r t ps fields) u).2.Unwrapped) (ht : t.inScope u.next)
    (hfields : Every Ty.inScope fields u.next) {θ : Valuation} {D B : Naming} (hθ : t.Admits θ D)
    (hfits : FitsList r (t.bindings.under θ) ps (fields.map (·.bind θ)) B) :
    ∃ t' u', Attempt.Returns (checkListAfter r t ps fields) u t' u' := by
  match ps, fields with
  | [], _ => exact ⟨t, u, by rw [checkListAfter]; rfl; simp⟩
  | p :: ps, [] => cases hfits
  | p :: ps, field :: fields =>
      rw [checkListAfter] at hu ⊢
      obtain ⟨hfield, hfields⟩ := every_cons.1 hfields
      rw [List.map_cons] at hfits
      cases hfits with
      | @cons _ B₁ _ _ _ _ _ hp hps =>
          have hknown : (t.subst.apply field).inScope u.next := Subst.within_apply ht.subst hfield
          have hp : p.Fits r (t.bindings.under θ) ((t.subst.apply field).bind θ) B₁ := by
            rw [hθ.2.bind_apply hfield.1]
            exact hp
          obtain ⟨t₁, u₁, hfirst⟩ := checkAfter_succeeds
            (hu.of_le (Succeeds.supply_le_bind (w := freshView)
              (fun t₁ u₁ => grows_checkListAfter t₁ ps fields u₁) u)) ht hknown hθ hp
          have hrest := unwrapped_of_bind hfirst hu
          have hu₁ : u₁.Unwrapped := hrest.of_le (grows_checkListAfter t₁ ps fields u₁)
          have hle := hu₁.next_le_next (le_of_checkAfter hfirst)
          have ht₁ := ready_of_checkAfter hfirst hu₁ (fun _ _ => trivial) (Typing.ready_of_inScope ht)
            ⟨hknown, hknown.imp fun _ _ => trivial⟩
          obtain ⟨θ', hagree, hθ', rfl⟩ :=
            (checkAfter_explains hfirst hu₁ ht hknown).complete θ D B₁ hθ hp
          rw [hagree.map_bind_eq hfields] at hps
          obtain ⟨t', u', hrun⟩ := checkListAfter_succeeds hrest ht₁.1
            ((Every Ty.inScope fields).mono hle hfields) hθ' hps
          exact ⟨t', u', Attempt.returns_bind_iff.2 ⟨t₁, u₁, hfirst, hrun⟩⟩

end

theorem check_succeeds {p : Pattern} {expected : Ty} {u : Supply}
    (hu : (Attempt.outcome (p.check r expected) u).2.Unwrapped) (he : expected.inScope u.next)
    {θ : Valuation} (hθ : θ.IsMono) {B : Naming} (hfits : p.Fits r .empty (expected.bind θ) B) :
    ∃ t u', Attempt.Returns (p.check r expected) u t u' := by
  unfold check at hu ⊢
  obtain ⟨t, u', hrun⟩ := checkAfter_succeeds (D := .empty)
    (hu.of_le (Succeeds.supply_le_bind (w := freshView) (fun _ _ => le_rfl) u))
    (Typing.start_sound _) he ⟨hθ, θ.solves_empty⟩ hfits
  exact ⟨_, u', Attempt.returns_bind_iff.2 ⟨t, u', hrun, rfl⟩⟩

theorem IsFor.exists_valuation {p : Pattern} {expected : Ty} {σ : Subst}
    (h : p.IsFor r Γ (σ.apply expected)) (hp : p.isIrrefutable = false)
    (he : expected.isMono = true) :
    ∃ θ : Valuation, θ.IsMono ∧ (∀ x ∈ expected.freeOccurrences, θ x = σ.image x) ∧
      expected.bind θ = σ.apply expected := by
  have hmono := h.isMono hp
  rw [Subst.apply_eq_bind] at hmono
  refine ⟨fun x => if x ∈ expected.freeOccurrences then σ.image x else .var x, fun x => ?_,
    fun x hx => if_pos hx, ?_⟩
  · dsimp only
    split
    · rename_i hx
      exact Ty.isMono_of_isMono_bind hmono hx he
    · rfl
  · rw [Subst.apply_eq_bind]
    exact Ty.bind_congr fun x hx => if_pos hx

/-- A typing of a pattern for values of a type, found while variables have been handed out from `u`
to `u'`: the pattern repeats no variable and is one for values of the type under the substitution,
where its variables have the types that are bound; and every substitution and types of variables
under which it is one for values of the type are an instance of that. -/
structure Typing.Principal (r : DataTypes) (p : Pattern) (expected : Ty) (u u' : Supply)
    (t : Typing) : Prop where
  nodup : p.vars.Nodup
  binds : ∀ name, (t.bindings.get? name).isSome = true ↔ name ∈ p.vars
  idempotent : t.subst.isIdempotent = true
  settled : ∀ s : Ty, s.isQuantifierFree = true →
    t.subst.apply (t.subst.apply s) = t.subst.apply s
  isFor : p.IsFor r t.bindings.get? (t.subst.apply expected)
  general : ∀ (σ : Subst) (Γ : Naming), p.IsFor r Γ (σ.apply expected) →
    ∃ w : Subst, (∀ x, x < u.next ∨ u'.next ≤ x → w.apply (t.subst.image x) = σ.image x) ∧
      ∀ name ∈ p.vars, Γ name = (t.bindings.get? name).map w.apply

/-- What a valuation puts for the variables of a pattern, and elsewhere a substitution, are put by
one substitution. -/
theorem Typing.factors {t : Typing} {p : Pattern} {expected : Ty} {u u' : Supply}
    (ht : t.ready (fun x => x ∈ expected.freeOccurrences ∨ u.next ≤ x) u'.next) {θ : Valuation}
    (hθ : θ.Solves t.subst) {σ : Subst} (he : expected.inScope u.next)
    (hσ : ∀ x ∈ expected.freeOccurrences, θ x = σ.image x)
    (hΓ : ∀ name ∈ p.vars, Γ name = t.bindings.under θ name) :
    ∃ w : Subst, (∀ x, x < u.next ∨ u'.next ≤ x → w.apply (t.subst.image x) = σ.image x) ∧
      ∀ name ∈ p.vars, Γ name = (t.bindings.get? name).map w.apply := by
  obtain ⟨hscope, hknown⟩ := ht
  obtain ⟨w, hw⟩ := σ.exists_image_eq θ (u.handedOut u')
  have hother : ∀ x, x < u.next ∨ u'.next ≤ x → w.image x = σ.image x := fun x hx => by
    rw [hw, if_neg fun hmem => by have := Supply.mem_handedOut.1 hmem; omega]
  -- on variables of which something is known the substitution is the valuation
  have hsame : ∀ s : Ty, s.inScope u'.next →
      s.Within (fun x => x ∈ expected.freeOccurrences ∨ u.next ≤ x) → w.apply s = s.bind θ := by
    intro s hs hwithin
    rw [Subst.apply_eq_bind]
    refine Ty.bind_congr fun x hx => ?_
    rcases hwithin.2 x hx with hmem | hle
    · rw [hother x (.inl (he.2 x hmem)), hσ x hmem]
    · rw [hw, if_pos (Supply.mem_handedOut.2 ⟨hle, hs.2 x hx⟩)]
  refine ⟨w, fun x hx => ?_, fun name hname => ?_⟩
  · cases hget : t.subst.get? x with
    | none => rw [Subst.image_of_get?_eq_none hget, Subst.apply_var, hother x hx]
    | some s =>
        obtain ⟨hlt, hs⟩ := hscope.subst x s hget
        obtain ⟨hF, hwithin⟩ := hknown.subst x s hget
        have hlt : x < u'.next := hlt
        have hmem : x ∈ expected.freeOccurrences :=
          hF.resolve_right fun hle => by omega
        rw [Subst.image_of_get?_eq_some hget, hsame s hs hwithin, ← hσ x hmem, ← hθ x,
          Subst.image_of_get?_eq_some hget]
  · rw [hΓ name hname, TypeEnv.under]
    exact Option.map_congr fun s hs =>
      (hsame s (hscope.bindings name s hs) (hknown.bindings name s hs)).symm

theorem ready_of_check {p : Pattern} {expected : Ty} {u u' : Supply} {t : Typing}
    (hrun : Attempt.Returns (p.check r expected) u t u') (hu : u'.Unwrapped)
    (he : expected.inScope u.next) :
    t.ready (fun x => x ∈ expected.freeOccurrences ∨ u.next ≤ x) u'.next ∧
      t.bindings.under t.subst.image = t.bindings.get? := by
  obtain ⟨t₁, u₁, hcheck, hrun⟩ := Attempt.returns_bind_iff.1 hrun
  cases hrun
  have hready := ready_of_checkAfter (F := fun x => x ∈ expected.freeOccurrences ∨ u.next ≤ x)
    hcheck hu (fun _ hx => .inr hx) ⟨Typing.start_sound _, Typing.start_sound _⟩
    ⟨he, he.1, fun x hx => .inl hx⟩
  have happly : ∀ {G : Int → Prop}, t₁.Sound G →
      Typing.Sound G { t₁ with bindings := t₁.bindings.mapValues t₁.subst.apply } := by
    intro G h
    refine { h with bindings := fun name s hs => ?_ }
    rw [SortedMap.get?_mapValues, Option.map_eq_some_iff] at hs
    obtain ⟨s', hs', rfl⟩ := hs
    exact Subst.within_apply h.subst (h.bindings name s' hs')
  refine ⟨⟨happly hready.1, happly hready.2⟩, funext fun name => ?_⟩
  rw [TypeEnv.under, SortedMap.get?_mapValues, Option.map_map]
  refine Option.map_congr fun s hs => ?_
  rw [Function.comp_apply, ← Subst.apply_eq_bind]
  exact hready.1.settled.apply_apply (hready.1.bindings name s hs).1

theorem returns_check_of_isIrrefutable {p : Pattern} (hp : p.isIrrefutable = true) (expected : Ty)
    (u : Supply) : ∃ t, Attempt.Returns (p.check r expected) u t u ∧ t.subst = ∅ ∧
      ∀ name ∈ p.vars, t.bindings.get? name = some expected := by
  cases p with
  | wildcard => exact ⟨_, rfl, rfl, fun name hname => absurd hname List.not_mem_nil⟩
  | var name =>
      refine ⟨_, rfl, rfl, fun other hother => ?_⟩
      obtain rfl : other = name := by simpa [vars] using hother
      rw [SortedMap.get?_mapValues, SortedMap.get?_insert, if_pos rfl, Option.map_some]
      rfl
  | const value => cases hp
  | constructor name args => cases hp

theorem IsFor.eq_some_of_isIrrefutable {p : Pattern} {t : Ty} (h : p.IsFor r Γ t)
    (hp : p.isIrrefutable = true) : ∀ name ∈ p.vars, Γ name = some t := by
  cases h with
  | wildcard => exact fun name hname => absurd hname List.not_mem_nil
  | @var name t hname =>
      intro other hother
      obtain rfl : other = name := by simpa [vars] using hother
      exact hname
  | const => cases hp
  | constructor => cases hp

/-- Whatever makes a checked pattern one for values of an instance of the expected type factors
through what the check has found. -/
theorem IsFor.factors {p : Pattern} {expected : Ty} {u u' : Supply} {t : Typing}
    (hrun : Attempt.Returns (p.check r expected) u t u') (hu : u'.Unwrapped)
    (he : expected.inScope u.next) (hp : p.vars.Nodup) {σ : Subst}
    (h : p.IsFor r Γ (σ.apply expected)) :
    ∃ w : Subst, (∀ x, x < u.next ∨ u'.next ≤ x → w.apply (t.subst.image x) = σ.image x) ∧
      ∀ name ∈ p.vars, Γ name = (t.bindings.get? name).map w.apply := by
  cases hirrefutable : p.isIrrefutable with
  | true =>
      obtain ⟨t', hrun', hsubst, hbindings⟩ :=
        returns_check_of_isIrrefutable (r := r) hirrefutable expected u
      obtain ⟨rfl, rfl⟩ : t' = t ∧ u = u' := by simpa using hrun'.symm.trans hrun
      refine ⟨σ, fun x _ => ?_, fun name hname => ?_⟩
      · rw [hsubst, Subst.image_empty, Subst.apply_var]
      · rw [h.eq_some_of_isIrrefutable hirrefutable name hname, hbindings name hname,
          Option.map_some]
  | false =>
      obtain ⟨θ, hθ, hsame, hbind⟩ := h.exists_valuation hirrefutable he.1
      rw [← hbind] at h
      obtain ⟨θ', hagree, hadmits, hvalue⟩ := (check_explains hrun hu he).complete θ .empty _ hθ
        (h.fits hp fun _ _ => rfl)
      refine Typing.factors (ready_of_check hrun hu he).1 hadmits.2 he (fun x hx => ?_)
        fun name hname => ?_
      · rw [← hagree x (he.2 x hx), hsame x hx]
      · rw [hvalue, bound, if_pos hname]

theorem principal_of_check {p : Pattern} {expected : Ty} {u u' : Supply} {t : Typing}
    (hrun : Attempt.Returns (p.check r expected) u t u') (hu : u'.Unwrapped)
    (he : expected.inScope u.next) : t.Principal r p expected u u' := by
  obtain ⟨hready, hunder⟩ := ready_of_check hrun hu he
  have hsettled := hready.1.settled
  have hmono := hready.1.subst.monoRange
  -- what has been found out holds under the substitution itself
  obtain ⟨-, hfits⟩ := (check_explains hrun hu he).sound t.subst.image .empty
    ⟨hmono, hsettled.bind_image⟩
  rw [hunder, ← Subst.apply_eq_bind] at hfits
  obtain ⟨hisFor, hnodup, -, -⟩ := hfits.isFor
  refine ⟨hnodup, fun name => ?_, hsettled.isIdempotent hmono, fun s hs => ?_, hisFor,
    fun σ Γ h => h.factors hrun hu he hnodup⟩
  · rw [hfits.isSome_iff name]
    simp [Naming.empty]
  · rw [Subst.apply_eq_bind, Subst.apply_eq_bind, Ty.bind_bind_of_isQuantifierFree _ _ hs]
    exact Ty.bind_congr fun x _ => hsettled.bind_image x

theorem exists_returns_check {p : Pattern} {expected : Ty} {u : Supply} {σ : Subst}
    (hu : (Attempt.outcome (p.check r expected) u).2.Unwrapped) (he : expected.inScope u.next)
    (hp : p.vars.Nodup) (h : p.IsFor r Γ (σ.apply expected)) :
    ∃ t u', Attempt.Returns (p.check r expected) u t u' := by
  cases hirrefutable : p.isIrrefutable with
  | true =>
      obtain ⟨t, hrun, -⟩ := returns_check_of_isIrrefutable (r := r) hirrefutable expected u
      exact ⟨t, u, hrun⟩
  | false =>
      obtain ⟨θ, hθ, -, hbind⟩ := h.exists_valuation hirrefutable he.1
      rw [← hbind] at h
      exact check_succeeds hu he hθ (h.fits hp fun _ _ => rfl)

/-- Checking a pattern for values of a monotype, whose variables have been handed out before, finds
its principal typing. Where it fails the pattern repeats a variable, or no substitution makes it one
for values of the type. -/
theorem check_principal_typing (r : DataTypes) (p : Pattern) (expected : Ty) (u : Supply)
    (he : expected.inScope u.next)
    (hu : (Attempt.outcome (p.check r expected) u).2.Unwrapped) :
    (∀ t u', Attempt.outcome (p.check r expected) u = (.ok t, u') →
        t.Principal r p expected u u') ∧
      ∀ e u', Attempt.outcome (p.check r expected) u = (.error e, u') →
        ¬p.vars.Nodup ∨ ∀ (σ : Subst) (Γ : Naming), ¬p.IsFor r Γ (σ.apply expected) := by
  refine ⟨fun t u' hrun => ?_, fun e u' hrun => ?_⟩
  · rw [hrun] at hu
    exact principal_of_check hrun hu he
  · by_contra hcontra
    simp only [not_or, not_not, not_forall] at hcontra
    obtain ⟨hnodup, σ, Γ, h⟩ := hcontra
    obtain ⟨t, u₁, hreturns⟩ := exists_returns_check hu he hnodup h
    cases hrun.symm.trans hreturns

/-- Lists, as they are declared. -/
def lists : DataTypes :=
  ⟨[⟨"List", ["a"], [⟨"Nil", []⟩,
    ⟨"Cons", [⟨none, .named "a"⟩, ⟨none, .app "List" [.named "a"]⟩]⟩]⟩]⟩

theorem check_principal_typing_lists :
    (∃ t u', Attempt.outcome (check lists (.constructor "Cons" [.constructor "Cons"
          [.const "1", .var "x"], .var "y"]) (.var 0)) (.startingAt 1) = (.ok t, u') ∧
      t.subst.entries = [(0, .data "List" "List" [.data "List" "List" [.scalar]]),
        (1, .data "List" "List" [.scalar]), (2, .scalar)] ∧
      t.bindings.entries = [("x", .data "List" "List" [.scalar]),
        ("y", .data "List" "List" [.data "List" "List" [.scalar]])] ∧
      t.Principal lists (.constructor "Cons" [.constructor "Cons" [.const "1", .var "x"], .var "y"])
        (.var 0) (.startingAt 1) u') ∧
    ∀ (σ : Subst) (Γ : Naming), ¬IsFor lists Γ (.constructor "Cons" [.constructor "Nil" [],
      .constructor "Cons" [.const "1", .var "x"]]) (σ.apply (.var 0)) := by
  have hscope : (Ty.var 0).inScope (Supply.startingAt 1).next := Ty.within_var (by decide)
  constructor
  · have hshown : ((Attempt.outcome (check lists (.constructor "Cons" [.constructor "Cons"
          [.const "1", .var "x"], .var "y"]) (.var 0)) (.startingAt 1)).1.toOption.map fun t =>
            (t.subst.entries, t.bindings.entries)) =
        some ([(0, .data "List" "List" [.data "List" "List" [.scalar]]),
          (1, .data "List" "List" [.scalar]), (2, .scalar)],
          [("x", .data "List" "List" [.scalar]),
          ("y", .data "List" "List" [.data "List" "List" [.scalar]])]) := by cbv
    have hsupply : (Attempt.outcome (check lists (.constructor "Cons" [.constructor "Cons"
        [.const "1", .var "x"], .var "y"]) (.var 0)) (.startingAt 1)).2 = ⟨1, 2, 0⟩ := by cbv
    have hprincipal := (check_principal_typing lists (.constructor "Cons" [.constructor "Cons"
      [.const "1", .var "x"], .var "y"]) (.var 0) (.startingAt 1) hscope
      (by rw [hsupply]; decide)).1
    generalize Attempt.outcome (check lists (.constructor "Cons" [.constructor "Cons"
      [.const "1", .var "x"], .var "y"]) (.var 0)) (.startingAt 1) = run at *
    obtain ⟨result, u'⟩ := run
    cases result with
    | error e => cases hshown
    | ok t =>
        obtain ⟨hsubst, hbindings⟩ := Prod.mk.inj (Option.some.inj hshown)
        exact ⟨t, u', rfl, hsubst, hbindings, hprincipal t u' rfl⟩
  · have hfails : (Attempt.outcome (check lists (.constructor "Cons" [.constructor "Nil" [],
        .constructor "Cons" [.const "1", .var "x"]]) (.var 0)) (.startingAt 1)) =
        (.error (.unify (.mismatch (.data "List" "List" [.var 2]) .scalar)), ⟨1, 3, 0⟩) := by cbv
    exact ((check_principal_typing lists (.constructor "Cons" [.constructor "Nil" [],
      .constructor "Cons" [.const "1", .var "x"]]) (.var 0) (.startingAt 1) hscope
      (by rw [hfails]; decide)).2 _ _ hfails).resolve_left fun h => h (by decide)

/-- Pairs, as they are declared. -/
def pairType : DataType :=
  ⟨"Pair", ["A", "B"], [⟨"Both", [⟨none, .named "A"⟩, ⟨none, .named "B"⟩]⟩]⟩

/-- The largest number is handed out before the least, so that the variable for the second field of
a pair may be one of the expected type. Then a pattern is refused that is one for values of the
type as it is. -/
theorem check_overrun :
    let least : Int := -2 ^ 63
    let p : Pattern := .constructor "Both" [.var "x", .var "y"]
    let second : Ty := .instanceOf "Pair" [.var least, .scalar]
    let expected : Ty := .instanceOf "Pair" [.scalar, second]
    let u := Supply.startingAt (2 ^ 63 - 1)
    expected.inScope u.next ∧ p.vars.Nodup ∧
      (∃ Γ : Naming, p.IsFor ⟨[pairType]⟩ Γ ((∅ : Subst).apply expected)) ∧
      (Attempt.outcome (p.check ⟨[pairType]⟩ expected) u).1 =
        .error (.unify (.occurs least second)) := by
  intro least p second expected u
  have hmono : ∀ t ∈ [Ty.scalar, second], t.isMono = true := by decide
  have hbuilds : DataTypes.Builds ⟨[pairType]⟩ "Both" [.scalar, second] expected :=
    .ofData (d := pairType) rfl (by decide) rfl hmono (.cons rfl (.cons rfl .nil))
  have hunchanged : (∅ : Subst).apply expected = expected := by cbv
  refine ⟨⟨rfl, by decide⟩, by decide, ?_, by cbv⟩
  rw [hunchanged]
  exact ⟨fun name => if name = "x" then some .scalar else some second,
    .constructor hbuilds (.cons (.var rfl) (.cons (.var rfl) .nil))⟩

end Pattern

end Formulary
