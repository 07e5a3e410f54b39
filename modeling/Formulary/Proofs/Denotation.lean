import Formulary.Proofs.MirroredCalls
import Formulary.Proofs.Variants

namespace Formulary

namespace DataTypes

mutual

/-- The type that a type expression stands for, where names that the scope leaves open, and lower
case names that nothing declares, have the types that a naming gives them. -/
def denote (r : DataTypes) (scope : Scope) (D : Naming) : TypeExpr → Option Ty
  | .blank => none
  | .named name =>
    match scope.lookup name with
    | some (some t) => some t
    | some none => D name
    | none =>
      match r.lookupName? name with
      | some t => some t
      | none => if isParamName name then D name else none
  | .app name args => do (r.applyName name (← denoteList r scope D args)).toOption
  | .arrow domain codomain => do
    return .fn (← denote r scope D domain) (← denote r scope D codomain)
  | .nat value => some (.nat value)
  | .tag value => some (.tag value)

def denoteList (r : DataTypes) (scope : Scope) (D : Naming) : List TypeExpr → Option (List Ty)
  | [] => some []
  | e :: es => do return (← denote r scope D e) :: (← denoteList r scope D es)

end

variable {r : DataTypes} {scope : Scope} {D : Naming} {θ : Valuation}

theorem denote_app_eq_some_iff {name : String} {args : List TypeExpr} {t : Ty} :
    r.denote scope D (.app name args) = some t ↔
      ∃ ts, r.denoteList scope D args = some ts ∧ r.applyName name ts = .ok t := by
  have htoOption : ∀ x : Except Fault Ty, x.toOption = some t ↔ x = .ok t := fun x => by
    cases x <;> simp [Except.toOption]
  simp only [denote, Option.bind_eq_bind, Option.bind_eq_some_iff, htoOption]

theorem denote_arrow_eq_some_iff {domain codomain : TypeExpr} {t : Ty} :
    r.denote scope D (.arrow domain codomain) = some t ↔
      ∃ a, r.denote scope D domain = some a ∧ ∃ b, r.denote scope D codomain = some b ∧
        t = .fn a b := by
  simp only [denote, Option.bind_eq_bind, Option.bind_eq_some_iff, Option.pure_def,
    Option.some.injEq, @eq_comm _ t]

theorem denoteList_cons_eq_some_iff {e : TypeExpr} {es : List TypeExpr} {ts : List Ty} :
    r.denoteList scope D (e :: es) = some ts ↔
      ∃ t, r.denote scope D e = some t ∧ ∃ us, r.denoteList scope D es = some us ∧
        ts = t :: us := by
  simp only [denoteList, Option.bind_eq_bind, Option.bind_eq_some_iff, Option.pure_def,
    Option.some.injEq, @eq_comm _ ts]

theorem length_of_denoteList {es : List TypeExpr} {ts : List Ty}
    (h : r.denoteList scope D es = some ts) : ts.length = es.length := by
  induction es generalizing ts with
  | nil =>
      cases h
      rfl
  | cons e es ih =>
      obtain ⟨t, -, us, hus, rfl⟩ := denoteList_cons_eq_some_iff.1 h
      rw [List.length_cons, List.length_cons, ih hus]

mutual

/-- Names that are not mentioned may stand for anything. -/
theorem denote_mono {D' : Naming} (hD : ∀ name t, D name = some t → D' name = some t)
    {e : TypeExpr} {t : Ty} (h : r.denote scope D e = some t) : r.denote scope D' e = some t := by
  cases e with
  | blank => cases h
  | named name =>
      rw [denote] at h ⊢
      cases hlookup : scope.lookup name with
      | some bound =>
          rw [hlookup] at h
          cases bound with
          | some u => exact h
          | none => exact hD name t h
      | none =>
          rw [hlookup] at h
          cases hname : r.lookupName? name with
          | some u =>
              simp only [hname] at h ⊢
              exact h
          | none =>
              simp only [hname, Option.ite_none_right_eq_some] at h ⊢
              exact ⟨h.1, hD name t h.2⟩
  | app name args =>
      obtain ⟨ts, hts, hname⟩ := denote_app_eq_some_iff.1 h
      exact denote_app_eq_some_iff.2 ⟨ts, denoteList_mono hD hts, hname⟩
  | arrow domain codomain =>
      obtain ⟨a, ha, b, hb, rfl⟩ := denote_arrow_eq_some_iff.1 h
      exact denote_arrow_eq_some_iff.2 ⟨a, denote_mono hD ha, b, denote_mono hD hb, rfl⟩
  | nat value => exact h
  | tag value => exact h

theorem denoteList_mono {D' : Naming} (hD : ∀ name t, D name = some t → D' name = some t)
    {es : List TypeExpr} {ts : List Ty} (h : r.denoteList scope D es = some ts) :
    r.denoteList scope D' es = some ts := by
  match es with
  | [] => exact h
  | e :: es =>
      obtain ⟨t, ht, us, hus, rfl⟩ := denoteList_cons_eq_some_iff.1 h
      exact denoteList_cons_eq_some_iff.2
        ⟨t, denote_mono hD ht, us, denoteList_mono hD hus, rfl⟩

end

theorem exists_applyName_eq_ok {name : String} {args args' : List Ty} {t : Ty}
    (h : r.applyName name args = .ok t) (hlength : args'.length = args.length) :
    ∃ t', r.applyName name args' = .ok t' := by
  unfold applyName at h ⊢
  cases hdata : r.find? name with
  | some d =>
      simp only [hdata] at h ⊢
      split at h
      · rename_i hparams
        exact ⟨_, if_pos (hparams.trans hlength.symm)⟩
      · cases h
  | none =>
      simp only [hdata] at h ⊢
      cases hvariant : r.metaVariant? name with
      | some v =>
          simp only [hvariant] at h ⊢
          split at h
          · rename_i hfields
            exact ⟨_, if_pos (hfields.trans hlength.symm)⟩
          · cases h
      | none =>
          simp only [hvariant] at h
          cases h

theorem toOption_applyName_bind (name : String) (args : List Ty) :
    (r.applyName name (args.map (·.bind θ))).toOption =
      (r.applyName name args).toOption.map (·.bind θ) := by
  cases h : r.applyName name args with
  | ok t => rw [applyName_bind h, Except.toOption, Except.toOption, Option.map_some]
  | error f =>
      cases h' : r.applyName name (args.map (·.bind θ)) with
      | ok t =>
          obtain ⟨u, hu⟩ := exists_applyName_eq_ok h' (List.length_map _).symm
          rw [h] at hu
          cases hu
      | error f' => rfl

mutual

/-- What a written type stands for depends on its scope and on the naming as a type on its
variables. -/
theorem denote_bind (r : DataTypes) (scope : Scope) (D : Naming) (θ : Valuation) (e : TypeExpr) :
    r.denote (scope.bind θ) (fun name => (D name).map (·.bind θ)) e =
      (r.denote scope D e).map (·.bind θ) := by
  cases e with
  | blank => rfl
  | named name =>
      simp only [denote, Scope.lookup_bind]
      cases hlookup : scope.lookup name with
      | some bound =>
          cases bound with
          | some t => rfl
          | none => rfl
      | none =>
          cases hname : r.lookupName? name with
          | some t => exact congrArg some (bind_of_lookupName? hname).symm
          | none =>
              simp only [Option.map_none]
              split
              · rfl
              · rfl
  | app name args =>
      rw [denote, denote, denoteList_bind r scope D θ args]
      cases r.denoteList scope D args with
      | none => rfl
      | some ts => exact toOption_applyName_bind name ts
  | arrow domain codomain =>
      rw [denote, denote, denote_bind r scope D θ domain, denote_bind r scope D θ codomain]
      cases r.denote scope D domain with
      | none => rfl
      | some a =>
          cases r.denote scope D codomain with
          | none => rfl
          | some b => rfl
  | nat value => rfl
  | tag value => rfl

theorem denoteList_bind (r : DataTypes) (scope : Scope) (D : Naming) (θ : Valuation)
    (es : List TypeExpr) :
    r.denoteList (scope.bind θ) (fun name => (D name).map (·.bind θ)) es =
      (r.denoteList scope D es).map (·.map (·.bind θ)) := by
  match es with
  | [] => rfl
  | e :: es =>
      rw [denoteList, denoteList, denote_bind r scope D θ e, denoteList_bind r scope D θ es]
      cases r.denote scope D e with
      | none => rfl
      | some t =>
          cases r.denoteList scope D es with
          | none => rfl
          | some ts => rfl

end

section

variable {F : Int → Prop}

theorem within_of_applyName {name : String} {args : List Ty} {t : Ty}
    (h : r.applyName name args = .ok t) (hargs : ∀ u ∈ args, u.Within F) : t.Within F := by
  have hends : Ends (fun t => t.Within F) Fault.IsOrdinary (r.applyName name args) :=
    applyName_ends hargs
  rwa [h] at hends

mutual

theorem within_of_denote (hscope : ∀ name t, (name, some t) ∈ scope → t.Within F)
    (hD : ∀ name t, D name = some t → t.Within F) {e : TypeExpr} {t : Ty}
    (h : r.denote scope D e = some t) : t.Within F := by
  cases e with
  | blank => cases h
  | named name =>
      rw [denote] at h
      split at h
      · rename_i u hlookup
        cases h
        obtain ⟨before, after, hlist, -⟩ := List.lookup_eq_some_iff.1 hlookup
        exact hscope name t (by simp [hlist])
      · exact hD name t h
      · split at h
        · rename_i u hlookup
          cases h
          exact within_of_lookupName? hlookup
        · split at h
          · exact hD name t h
          · cases h
  | app name args =>
      obtain ⟨ts, hts, hname⟩ := denote_app_eq_some_iff.1 h
      exact within_of_applyName hname (within_of_denoteList hscope hD hts)
  | arrow domain codomain =>
      obtain ⟨a, ha, b, hb, rfl⟩ := denote_arrow_eq_some_iff.1 h
      exact Ty.within_fn.2 ⟨within_of_denote hscope hD ha, within_of_denote hscope hD hb⟩
  | nat value =>
      cases h
      exact Ty.within_nat _
  | tag value =>
      cases h
      exact Ty.within_tag _

theorem within_of_denoteList (hscope : ∀ name t, (name, some t) ∈ scope → t.Within F)
    (hD : ∀ name t, D name = some t → t.Within F) {es : List TypeExpr} {ts : List Ty}
    (h : r.denoteList scope D es = some ts) : ∀ t ∈ ts, t.Within F := by
  match es with
  | [] =>
      cases h
      exact fun _ ht => absurd ht List.not_mem_nil
  | e :: es =>
      obtain ⟨t, ht, us, hus, rfl⟩ := denoteList_cons_eq_some_iff.1 h
      exact List.forall_mem_cons.2
        ⟨within_of_denote hscope hD ht, within_of_denoteList hscope hD hus⟩

end

end

end DataTypes

/-- Variables for some names, all different from each other and from those of some types. -/
structure Apart {α : Type} (v : α → Int) (ts : List Ty) : Prop where
  injective : v.Injective
  new : ∀ t ∈ ts, ∀ x ∈ t.freeOccurrences, ∀ name, v name ≠ x

theorem countable_string : Countable String :=
  have : Countable Char := Function.Injective.countable (f := Char.toNat) fun _ _ => Char.toNat_inj.1
  Function.Injective.countable (f := String.toList) fun _ _ => String.toList_inj.1

theorem exists_apart (α : Type) [Countable α] (ts : List Ty) : ∃ v : α → Int, Apart v ts := by
  obtain ⟨number, hnumber⟩ := Countable.exists_injective_nat α
  obtain ⟨n, hn⟩ := (Ty.freeOccurrencesList ts).finite_toSet.bddAbove
  refine ⟨fun name => n + 1 + number name, fun name other heq => hnumber ?_, ?_⟩
  · have heq : n + 1 + (number name : Int) = n + 1 + number other := heq
    omega
  · rintro t ht x hx name rfl
    have hle := hn (Ty.mem_freeOccurrencesList.2 ⟨t, ht, hx⟩)
    omega

namespace Apart

variable {α : Type} {v : α → Int} {ts : List Ty}

theorem map_bind_extend (hv : Apart v ts) (f : α → Ty) (θ : Valuation) :
    ts.map (·.bind (Function.extend v f θ)) = ts.map (·.bind θ) :=
  List.map_congr_left fun t ht => Ty.bind_congr fun x hx =>
    Function.extend_apply' f θ x fun ⟨name, hname⟩ => hv.new t ht x hx name hname

theorem bind_var_extend (hv : Apart v ts) (f : α → Ty) (θ : Valuation) (name : α) :
    (Ty.var (v name)).bind (Function.extend v f θ) = f name :=
  hv.injective.extend_apply f θ name

end Apart

theorem Subst.map_apply (σ : Subst) (ts : List Ty) :
    ts.map σ.apply = ts.map (·.bind σ.image) :=
  List.map_congr_left fun t _ => Subst.apply_eq_bind σ t

theorem map_apply_of_unifyList {as bs : List Ty} {σ : Subst} (has : Ty.isMonoList as = true)
    (hbs : Ty.isMonoList bs = true) (hlength : as.length = bs.length)
    (h : Ty.unifyList as bs = .ok σ) : as.map σ.apply = bs.map σ.apply := by
  have hunifies := (Ty.unifyList_mostGeneral has hbs hlength h).unifies
  rw [unifies_zip hlength, Ty.bindList_eq_map, Ty.bindList_eq_map] at hunifies
  rwa [Subst.map_apply, Subst.map_apply]

/-- Steps that hand out variables by name. A naming of the parameters goes with the types that are
put for their variables. -/
def namedView : View NamedVars Fault :=
  { namedWatch with
    allowed := fun _ => True
    admits := fun s θ D => ∀ name id, s.vars.lookup name = some id → D name = some (θ id) }

variable {r : DataTypes} {scope : Scope} {P : Upward}

theorem varFor_finds (name : String) :
    Finds namedView P (liftM (NamedVars.varFor name) : FreshNamed Int) Before (fun id θ => θ id)
      fun _ D t => D name = some t where
  grows := (varFor_keeps (P := P) name).grows
  keeps s hs hsound hpre := (varFor_keeps name).keeps s hs hsound hpre
  finds s id s' hrun hs _ _ := by
    rw [Attempt.Returns, Attempt.outcome_liftState, run_varFor] at hrun
    cases hlookup : s.vars.lookup name with
    | some id' =>
        rw [hlookup] at hrun
        cases hrun
        refine Explains.of_iff fun θ D t hθ => ?_
        rw [hθ name _ hlookup, Option.some.injEq, eq_comm]
    | none =>
        rw [hlookup] at hrun
        cases hrun
        have hother : ∀ other id, s.vars.lookup other = some id →
            ((name, s.supply.next) :: s.vars).lookup other = some id := by
          intro other id hid
          rw [List.lookup_cons, beq_false_of_ne, hid]
          rintro rfl
          rw [hlookup] at hid
          cases hid
        refine ⟨fun θ D hθ => ⟨fun other id hid => hθ other id (hother other id hid),
          hθ name _ (by simp)⟩, fun θ D t hθ ht => ?_⟩
        have hvalue : (θ.set s.supply.next t) s.supply.next = t := if_pos rfl
        refine ⟨_, θ.agreesBelow_set s.supply.next t, fun other id hid => ?_, hvalue⟩
        rw [List.lookup_cons] at hid
        cases hbeq : other == name with
        | true =>
            simp only [hbeq, Option.some.injEq] at hid
            rw [← hid, hvalue, eq_of_beq hbeq, ht]
        | false =>
            simp only [hbeq] at hid
            obtain ⟨front, back, hvars, -⟩ := List.lookup_eq_some_iff.1 hid
            have hlt : id < s.supply.next := hs (other, id) (by simp [hvars])
            rw [hθ other id hid, θ.agreesBelow_set s.supply.next t id hlt]

namespace DataTypes

theorem freeParam_finds (name : String) :
    Finds namedView P (freeParam name) Ty.inScope (fun t θ => t.bind θ)
      fun _ D t => D name = some t := by
  refine ((varFor_finds name).bind (K := fun _ u _ t => t = u) (fun id => ?_)
    fun _ _ _ _ _ => rfl).congr fun s _ _ θ D t _ => ?_
  · exact Finds.pure (fun n h => Ty.within_var h.2) fun s _ _ θ D t _ => Iff.rfl
  · simp

theorem scope_bind_congr {n : Int} {θ θ' : Valuation} (hscope : scope.inScope n)
    (h : Valuation.AgreesBelow n θ θ') : scope.bind θ = scope.bind θ' := by
  refine List.map_congr_left fun b hb => ?_
  rcases b with ⟨name, t⟩
  cases t with
  | none => rfl
  | some t => rw [Option.map_some, Option.map_some, h.bind_eq (hscope name t hb)]

mutual

theorem resolve_finds (r : DataTypes) (scope : Scope) (e : TypeExpr) :
    Finds namedView scope.inScope (r.resolve scope true e) Ty.inScope (fun t θ => t.bind θ)
      fun θ D t => r.denote (scope.bind θ) D e = some t := by
  cases e with
  | blank => exact Finds.throw fun _ _ => trivial
  | named name =>
      simp only [resolve, denote, Scope.lookup_bind]
      cases hlookup : scope.lookup name with
      | some bound =>
          cases bound with
          | some t =>
              obtain ⟨before, after, hlist, -⟩ := List.lookup_eq_some_iff.1 hlookup
              refine Finds.pure (fun n h => h name t (by simp [hlist])) fun s _ _ θ D u _ => ?_
              simp [eq_comm]
          | none => exact freeParam_finds name
      | none =>
          cases hname : r.lookupName? name with
          | some t =>
              refine Finds.pure (fun n _ => within_of_lookupName? hname) fun s _ _ θ D u _ => ?_
              simp [bind_of_lookupName? hname, eq_comm]
          | none =>
              simp only [Option.map_none, Bool.true_and]
              split
              · exact freeParam_finds name
              · exact Finds.throw fun _ _ => trivial
  | app name args =>
      rw [resolve]
      refine ((resolveList_finds r scope args).bind
        (K := fun _ ts _ t => r.applyName name ts = .ok t) (fun ts => ?_)
        fun _ _ _ _ _ => rfl).congr fun s _ _ θ D t _ => denote_app_eq_some_iff.symm
      have hends : ∀ n, (scope.inScope ⊓ Every Ty.inScope ts) n →
          namedView.Allows Ty.inScope n (r.applyName name ts) := fun n h => by
        have hends : Ends (fun t => t.Within (· < n)) Fault.IsOrdinary (r.applyName name ts) :=
          applyName_ends h.2
        cases hresult : r.applyName name ts with
        | ok t => rwa [hresult] at hends
        | error f => trivial
      refine Finds.ofExcept hends fun t ht θ D u => ?_
      rw [applyName_bind ht, Except.ok.injEq, eq_comm]
  | arrow domain codomain =>
      rw [resolve]
      refine ((resolve_finds r scope domain).bind
        (K := fun θ a D t => ∃ b, r.denote (scope.bind θ) D codomain = some b ∧ t = .fn a b)
        (fun a => ?_) fun n hn θ θ' hagree => ?_).congr
          fun s _ _ θ D t _ => denote_arrow_eq_some_iff.symm
      · refine (resolve_finds r scope codomain).followedBy (P := scope.inScope ⊓ a.inScope)
          (K := fun θ b _ t => t = Ty.fn (a.bind θ) b) (fun n hn => hn.1) (fun b => ?_)
          fun n hn θ θ' hagree => ?_
        · exact Finds.pure (fun n hn => Ty.within_fn.2 ⟨hn.1.2, hn.2⟩)
            fun s _ _ θ D t _ => Iff.rfl
        · rw [hagree.bind_eq hn.2]
      · rw [scope_bind_congr hn hagree]
  | nat value =>
      refine Finds.pure (fun _ _ => Ty.within_nat _) fun s _ _ θ D t _ => ?_
      simp [denote, Ty.bind, eq_comm]
  | tag value =>
      refine Finds.pure (fun _ _ => Ty.within_tag _) fun s _ _ θ D t _ => ?_
      simp [denote, Ty.bind, eq_comm]

theorem resolveList_finds (r : DataTypes) (scope : Scope) (es : List TypeExpr) :
    Finds namedView scope.inScope (r.resolveList scope true es) (Every Ty.inScope)
      (fun ts θ => ts.map (·.bind θ))
      fun θ D ts => r.denoteList (scope.bind θ) D es = some ts := by
  match es with
  | [] =>
      refine Finds.pure (fun n _ => every_nil _ n) fun s _ _ θ D ts _ => ?_
      simp [denoteList, eq_comm]
  | e :: es =>
      rw [resolveList]
      refine ((resolve_finds r scope e).bind
        (K := fun θ t D ts => ∃ us, r.denoteList (scope.bind θ) D es = some us ∧ ts = t :: us)
        (fun t => ?_) fun n hn θ θ' hagree => ?_).congr
          fun s _ _ θ D t _ => denoteList_cons_eq_some_iff.symm
      · refine (resolveList_finds r scope es).followedBy (P := scope.inScope ⊓ t.inScope)
          (K := fun θ us _ ts => ts = t.bind θ :: us) (fun n hn => hn.1) (fun us => ?_)
          fun n hn θ θ' hagree => ?_
        · exact Finds.pure (fun n hn => every_cons.2 ⟨hn.1.2, hn.2⟩)
            fun s _ _ θ D ts _ => Iff.rfl
        · rw [hagree.bind_eq hn.2]
      · rw [scope_bind_congr hn hagree]

end

mutual

theorem returns_resolve_of_denote {D : Naming} {θ : Valuation} {e : TypeExpr} {t : Ty}
    (h : r.denote (scope.bind θ) D e = some t) (s : NamedVars) :
    ∃ u s', Attempt.Returns (r.resolve scope true e) s u s' := by
  cases e with
  | blank => cases h
  | named name =>
      have hfree : ∃ u s', Attempt.Returns (freeParam name) s u s' := ⟨_, _, rfl⟩
      rw [denote, Scope.lookup_bind] at h
      rw [resolve]
      cases hlookup : scope.lookup name with
      | some bound =>
          cases bound with
          | some u => exact ⟨u, s, rfl⟩
          | none => exact hfree
      | none =>
          rw [hlookup] at h
          cases hname : r.lookupName? name with
          | some u => exact ⟨u, s, rfl⟩
          | none =>
              simp only [Option.map_none, hname, Option.ite_none_right_eq_some] at h
              simp only [Bool.true_and, if_pos h.1]
              exact hfree
  | app name args =>
      obtain ⟨ts, hts, hname⟩ := denote_app_eq_some_iff.1 h
      obtain ⟨us, s₁, hus⟩ := returns_resolveList_of_denoteList hts s
      have hlength : us.length = ts.length :=
        (length_of_resolveList hus).trans (length_of_denoteList hts).symm
      obtain ⟨u, hu⟩ := exists_applyName_eq_ok hname hlength
      rw [resolve]
      refine ⟨u, s₁, Attempt.returns_bind_iff.2 ⟨us, s₁, hus, ?_⟩⟩
      rw [Attempt.Returns, Attempt.outcome_liftExcept, hu]
  | arrow domain codomain =>
      obtain ⟨a, ha, b, hb, rfl⟩ := denote_arrow_eq_some_iff.1 h
      obtain ⟨a', s₁, ha'⟩ := returns_resolve_of_denote ha s
      obtain ⟨b', s₂, hb'⟩ := returns_resolve_of_denote hb s₁
      rw [resolve]
      exact ⟨_, s₂, Attempt.returns_bind_iff.2 ⟨a', s₁, ha',
        Attempt.returns_bind_iff.2 ⟨b', s₂, hb', rfl⟩⟩⟩
  | nat value => exact ⟨_, _, rfl⟩
  | tag value => exact ⟨_, _, rfl⟩

theorem returns_resolveList_of_denoteList {D : Naming} {θ : Valuation} {es : List TypeExpr}
    {ts : List Ty} (h : r.denoteList (scope.bind θ) D es = some ts) (s : NamedVars) :
    ∃ us s', Attempt.Returns (r.resolveList scope true es) s us s' := by
  match es with
  | [] => exact ⟨_, _, rfl⟩
  | e :: es =>
      obtain ⟨t, ht, us, hus, rfl⟩ := denoteList_cons_eq_some_iff.1 h
      obtain ⟨t', s₁, ht'⟩ := returns_resolve_of_denote ht s
      obtain ⟨us', s₂, hus'⟩ := returns_resolveList_of_denoteList hus s₁
      rw [resolveList]
      exact ⟨_, s₂, Attempt.returns_bind_iff.2 ⟨t', s₁, ht',
        Attempt.returns_bind_iff.2 ⟨us', s₂, hus', rfl⟩⟩⟩

end

end DataTypes

end Formulary
