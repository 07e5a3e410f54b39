import Formulary.Proofs.CallUnification
import Formulary.Proofs.FirstOrder

namespace Formulary

namespace Ty

/-- Whether a type is a value of a kind of parameters: a dimension, a string, or neither of these. -/
def IsOfKind (t : Ty) : ParamKind → Prop
  | .dimension => ∃ value, t = .nat value
  | .string => ∃ value, t = .tag value
  | .type => (∀ value, t ≠ .nat value) ∧ ∀ value, t ≠ .tag value

theorem isGroundList_iff {ts : List Ty} :
    isGroundList ts = true ↔ ∀ t ∈ ts, t.isGround = true := by
  induction ts with
  | nil => simp [isGroundList]
  | cons t ts ih => simp [isGroundList, ih]

mutual

theorem isGround_of_isMono {t : Ty} (hmono : t.isMono = true) (h : t.freeOccurrences = []) :
    t.isGround = true := by
  cases t with
  | prim | nat | tag => rfl
  | blank | poly => cases hmono
  | var id => cases h
  | data name constructor args => exact isGroundList_of_isMonoList hmono h
  | fn a b =>
      obtain ⟨ha, hb⟩ := Bool.and_eq_true_iff.1 hmono
      obtain ⟨hfreeA, hfreeB⟩ := List.append_eq_nil_iff.1 h
      exact Bool.and_eq_true_iff.2 ⟨isGround_of_isMono ha hfreeA, isGround_of_isMono hb hfreeB⟩

theorem isGroundList_of_isMonoList {ts : List Ty} (hmono : isMonoList ts = true)
    (h : freeOccurrencesList ts = []) : isGroundList ts = true := by
  match ts with
  | [] => rfl
  | t :: ts =>
      obtain ⟨ht, hts⟩ := Bool.and_eq_true_iff.1 hmono
      obtain ⟨hfree, hfrees⟩ := List.append_eq_nil_iff.1 h
      exact Bool.and_eq_true_iff.2
        ⟨isGround_of_isMono ht hfree, isGroundList_of_isMonoList hts hfrees⟩

end

theorem fits_iff_isOfKind {kind : ParamKind} {t : Ty} (h : t.isGround = true) :
    Signature.Call.fits kind t = true ↔ t.IsOfKind kind := by
  cases kind <;> cases t <;> simp_all [Signature.Call.fits, IsOfKind, isGround]

end Ty

namespace DataTypes

variable {r : DataTypes}

/-- Types of which everything is known. -/
structure Settled (r : DataTypes) (t : Ty) : Prop where
  ground : t.isGround = true
  mono : t.isMono = true
  formed : r.Forms t

theorem Settled.of_data {name constructor : String} {args : List Ty}
    (h : r.Settled (.data name constructor args)) : ∀ t ∈ args, r.Settled t := by
  obtain ⟨hground, hmono, hformed⟩ := h
  intro t ht
  exact ⟨Ty.isGroundList_iff.1 hground t ht, Ty.isMonoList_iff.1 hmono t ht,
    (Ty.formed_data_iff.1 hformed).2 t ht⟩

theorem Settled.of_fn {a b : Ty} (h : r.Settled (.fn a b)) : r.Settled a ∧ r.Settled b := by
  obtain ⟨hground, hmono, hformed⟩ := h
  obtain ⟨hgroundA, hgroundB⟩ := Bool.and_eq_true_iff.1 hground
  obtain ⟨hmonoA, hmonoB⟩ := Bool.and_eq_true_iff.1 hmono
  obtain ⟨hformedA, hformedB⟩ := Ty.formed_fn_iff.1 hformed
  exact ⟨⟨hgroundA, hmonoA, hformedA⟩, ⟨hgroundB, hmonoB, hformedB⟩⟩

theorem isGround_of_lookupName? {name : String} {t : Ty} (h : r.lookupName? name = some t) :
    t.isGround = true := by
  have hclosed : t.Within fun _ => False := within_of_lookupName? h
  exact Ty.isGround_of_isMono hclosed.1 (List.eq_nil_iff_forall_not_mem.2 hclosed.2)

theorem exists_applyName_of_fieldKinds? {name : String} {kinds : List ParamKind} {ts : List Ty}
    (h : r.fieldKinds? name = some kinds) (hlength : kinds.length = ts.length) :
    ∃ t, r.applyName name ts = .ok t := by
  unfold fieldKinds? at h
  unfold applyName
  split at h
  · cases h
    rw [List.length_map] at hlength
    exact ⟨_, if_pos hlength⟩
  · obtain ⟨v, hv, rfl⟩ := Option.map_eq_some_iff.1 h
    rw [List.length_map] at hlength
    rw [hv]
    exact ⟨_, if_pos hlength⟩

end DataTypes

namespace Signature

/-- What the parameters are bound to. -/
def Progress.naming (p : Progress) : Naming := fun name => (p.bindings.get? name).map (·.type)

namespace Call

variable {c : Call}

mutual

/-- The parameters that a part of the signature mentions, from left to right, each with the kind that
its place asks for. -/
def occurrences (c : Call) (hint : ParamKind) : TypeExpr → List (String × ParamKind)
  | .named name => if c.isParam name then [(name, hint)] else []
  | .app name args => occurrencesList c name 0 args
  | .arrow domain codomain => occurrences c .type domain ++ occurrences c .type codomain
  | .blank | .nat _ | .tag _ => []

/-- The parameters in the arguments of an applied name, from place `i` on. -/
def occurrencesList (c : Call) (name : String) (i : Nat) : List TypeExpr → List (String × ParamKind)
  | [] => []
  | e :: es => occurrences c (c.data.fieldKind name i) e ++ occurrencesList c name (i + 1) es

end

/-- The kind of a parameter: what its declaration says, else what a place asks for. -/
def kindAt (c : Call) (name : String) (hint : ParamKind) : ParamKind :=
  ((c.registry.paramKinds c.interface).lookup name).getD hint

/-- The kind of a parameter of the parameter types, where an implicit one has the kind that its first
occurrence asks for. Other names have none. -/
def paramKind? (c : Call) (name : String) : Option ParamKind :=
  ((c.operation.signature.splitArrow.1.flatMap (c.occurrences .type)).lookup name).map
    (c.kindAt name)

/-- Each parameter of the parameter types, and no other name, has a value of its kind, these values
turn the parameter types into the types of the arguments, and they cover the parameters of the
result. -/
structure Assigns (c : Call) (D : Naming) : Prop where
  domain : ∀ name, (D name).isSome = (c.paramKind? name).isSome
  kinds : ∀ name kind t, c.paramKind? name = some kind → D name = some t → t.IsOfKind kind
  params : c.denoteList D c.operation.signature.splitArrow.1 = some c.args
  covers : ∀ p ∈ c.occurrences .type c.operation.signature.splitArrow.2, (D p.1).isSome

theorem kindOf_of_unbound {bindings : SortedMap String ParamBinding} {name : String}
    (h : bindings.get? name = none) (hint : ParamKind) :
    c.kindOf bindings name hint = c.kindAt name hint := by
  rw [kindOf, h, kindAt]
  cases (c.registry.paramKinds c.interface).lookup name with
  | none => rfl
  | some kind => rfl

/-- Exactly the parameters that occurred so far are bound, each to a value of the kind that its first
occurrence has, and nothing is left to unify. -/
structure Records (c : Call) (occs : List (String × ParamKind)) (p : Progress) : Prop where
  kinds : ∀ name, (p.bindings.get? name).map (·.kind) = (occs.lookup name).map (c.kindAt name)
  values : ∀ name b, p.bindings.get? name = some b →
    b.type.isGround = true ∧ b.type.IsOfKind b.kind
  constraints : p.constraints = []

/-- A naming gives parameters values of the kinds that their first occurrences have. -/
def Fits (c : Call) (occs : List (String × ParamKind)) (D : Naming) : Prop :=
  ∀ name kind t, occs.lookup name = some kind → D name = some t → t.IsOfKind (c.kindAt name kind)

theorem Fits.of_append {occs more : List (String × ParamKind)} {D : Naming}
    (h : c.Fits (occs ++ more) D) : c.Fits occs D :=
  fun name kind t hname ht =>
    h name kind t ((List.prefix_append occs more).lookup_eq_some hname) ht

/-- Steps that walk over some parameters and stand for a condition on what the parameters are: they
bind the parameters so that it holds, and they succeed wherever some assignment makes it hold. -/
structure Settles (c : Call) (before found : List (String × ParamKind)) (m : Interpret Unit)
    (C : Naming → Prop) : Prop where
  sound : ∀ p p', c.Records before p → Attempt.Returns m p () p' →
    c.Records (before ++ found) p' ∧ p'.naming.Extends p.naming ∧ C p'.naming
  complete : ∀ p D, c.Records before p → D.Extends p.naming → c.Fits (before ++ found) D → C D →
    ∃ p', Attempt.Returns m p () p' ∧ D.Extends p'.naming

namespace Settles

variable {before found more : List (String × ParamKind)} {m m' : Interpret Unit}
  {C C' : Naming → Prop}

theorem pure (h : ∀ D, C D) : c.Settles before [] (pure ()) C where
  sound p p' hp hrun := by
    cases hrun
    rw [List.append_nil]
    exact ⟨hp, fun _ _ ht => ht, h _⟩
  complete p D _ hD _ _ := ⟨p, rfl, hD⟩

theorem never (hm : ∀ p p', ¬Attempt.Returns m p () p') (hC : ∀ D, ¬C D) :
    c.Settles before found m C where
  sound p p' _ hrun := absurd hrun (hm p p')
  complete _ D _ _ _ h := absurd h (hC D)

theorem congr (h : c.Settles before found m C) (hC : ∀ D, C' D ↔ C D) :
    c.Settles before found m C' := by
  rwa [show C' = C from funext fun D => propext (hC D)]

theorem bind (h : c.Settles before found m C) (h' : c.Settles (before ++ found) more m' C')
    (hC : ∀ D D' : Naming, D'.Extends D → C D → C D') :
    c.Settles before (found ++ more) (do m; m') fun D => C D ∧ C' D where
  sound p p' hp hrun := by
    obtain ⟨a, p₁, hfirst, hrest⟩ := Attempt.returns_bind_iff.1 hrun
    obtain ⟨hp₁, hext, hc⟩ := h.sound p p₁ hp hfirst
    obtain ⟨hp', hext', hc'⟩ := h'.sound p₁ p' hp₁ hrest
    rw [List.append_assoc] at hp'
    exact ⟨hp', fun name t ht => hext' name t (hext name t ht), hC _ _ hext' hc, hc'⟩
  complete p D hp hD hfits hboth := by
    rw [← List.append_assoc] at hfits
    obtain ⟨p₁, hfirst, hD₁⟩ := h.complete p D hp hD hfits.of_append hboth.1
    obtain ⟨p', hrest, hD'⟩ :=
      h'.complete p₁ D (h.sound p p₁ hp hfirst).1 hD₁ hfits hboth.2
    exact ⟨p', Attempt.returns_bind_iff.2 ⟨(), p₁, hfirst, hrest⟩, hD'⟩

end Settles

variable {before : List (String × ParamKind)}

theorem Records.lookup_isSome {p : Progress} (hp : c.Records before p) (name : String) :
    (before.lookup name).isSome = (p.bindings.get? name).isSome := by
  rw [← Option.isSome_map (f := ParamBinding.kind), hp.kinds name, Option.isSome_map]

theorem Records.bindTo {p : Progress} (hp : c.Records before p) {name : String}
    (hname : p.bindings.get? name = none) {hint : ParamKind} {t : Ty} (hground : t.isGround = true)
    (hkind : t.IsOfKind (c.kindAt name hint)) (arg : Nat) :
    c.Records (before ++ [(name, hint)])
      { p with bindings := p.bindings.insert name ⟨c.kindAt name hint, t, arg⟩ } where
  kinds other := by
    have hunbound : before.lookup name = none := by
      rw [← Option.not_isSome_iff_eq_none, hp.lookup_isSome, hname]
      simp
    rw [SortedMap.get?_insert, List.lookup_append]
    split
    · rename_i heq
      subst heq
      simp [hunbound]
    · rename_i hne
      rw [List.lookup_cons, beq_false_of_ne (Ne.symm hne), List.lookup_nil, Option.or_none]
      exact hp.kinds other
  values other b hb := by
    rw [SortedMap.get?_insert] at hb
    split at hb
    · cases hb
      exact ⟨hground, hkind⟩
    · exact hp.values other b hb
  constraints := hp.constraints

theorem Records.again {p : Progress} (hp : c.Records before p) {name : String} {b : ParamBinding}
    (hname : p.bindings.get? name = some b) (hint : ParamKind) :
    c.Records (before ++ [(name, hint)]) p where
  kinds other := by
    rw [List.lookup_append, hp.kinds other]
    by_cases heq : other = name
    · subst heq
      obtain ⟨kind, hkind⟩ := Option.isSome_iff_exists.1
        ((hp.lookup_isSome other).trans (by rw [hname]; rfl))
      rw [hkind, Option.some_or]
    · rw [List.lookup_cons, beq_false_of_ne heq, List.lookup_nil, Option.or_none]
  values := hp.values
  constraints := hp.constraints

theorem returns_bindParam_iff {p p' : Progress} (hp : c.Records before p) {name : String}
    {hint : ParamKind} {t : Ty} (ht : c.data.Settled t) {arg : Nat} :
    Attempt.Returns (c.bindParam name hint t arg) p () p' ↔
      (p.bindings.get? name = none ∧ t.IsOfKind (c.kindAt name hint) ∧
        p' = { p with bindings := p.bindings.insert name ⟨c.kindAt name hint, t, arg⟩ }) ∨
      ∃ earlier, p.bindings.get? name = some earlier ∧ earlier.type = t ∧ p' = p := by
  unfold Attempt.Returns bindParam
  rw [Attempt.outcome_bind, Attempt.outcome_get]
  cases hname : p.bindings.get? name with
  | none =>
      simp only [hname, kindOf_of_unbound hname]
      rw [← Ty.fits_iff_isOfKind ht.ground]
      by_cases hfits : fits (c.kindAt name hint) t = true
      · rw [if_pos hfits]
        simp [bindTo, hfits, eq_comm]
      · rw [if_neg hfits]
        simp [hfits]
  | some earlier =>
      simp only [hname]
      by_cases hsame : Ty.same earlier.type t = true
      · rw [if_pos hsame]
        simp [Ty.eq_of_same hsame, eq_comm]
      · have hne : earlier.type ≠ t := fun heq => by
          rw [heq, Ty.same_self ht.mono] at hsame
          exact hsame rfl
        rw [if_neg hsame, (hp.values name earlier hname).1, ht.ground]
        simp only [Bool.not_true, Bool.or_self, Bool.false_eq_true, if_false]
        split
        · simp [hne]
        · simp [hne]

theorem bindParam_settles (name : String) (hint : ParamKind) {t : Ty} (ht : c.data.Settled t)
    (arg : Nat) :
    c.Settles before [(name, hint)] (c.bindParam name hint t arg) fun D => D name = some t where
  sound p p' hp hrun := by
    obtain ⟨hname, hkind, rfl⟩ | ⟨earlier, hname, rfl, rfl⟩ := (returns_bindParam_iff hp ht).1 hrun
    · refine ⟨hp.bindTo hname ht.ground hkind arg, fun other u hu => ?_, ?_⟩
      · rw [Progress.naming, SortedMap.get?_insert, if_neg]
        · exact hu
        · rintro rfl
          rw [Progress.naming, hname] at hu
          cases hu
      · rw [Progress.naming, SortedMap.get?_insert, if_pos rfl, Option.map_some]
    · refine ⟨hp.again hname hint, fun _ _ hu => hu, ?_⟩
      rw [Progress.naming, hname, Option.map_some]
  complete p D hp hD hfits hvalue := by
    cases hname : p.bindings.get? name with
    | none =>
        have hunbound : before.lookup name = none := by
          rw [← Option.not_isSome_iff_eq_none, hp.lookup_isSome, hname]
          simp
        have hkind : t.IsOfKind (c.kindAt name hint) :=
          hfits name hint t (by simp [List.lookup_append, hunbound]) hvalue
        refine ⟨_, (returns_bindParam_iff hp ht).2 (.inl ⟨hname, hkind, rfl⟩), fun other u hu => ?_⟩
        rw [Progress.naming, SortedMap.get?_insert] at hu
        split at hu
        · rename_i heq
          cases hu
          exact heq ▸ hvalue
        · exact hD other u hu
    | some earlier =>
        have hbound := hD name earlier.type (by rw [Progress.naming, hname, Option.map_some])
        have heq : earlier.type = t := Option.some.inj (hbound.symm.trans hvalue)
        exact ⟨p, (returns_bindParam_iff hp ht).2 (.inr ⟨earlier, hname, heq, rfl⟩), hD⟩

theorem require_settles {expected t : Ty} (hexpected : expected.isGround = true)
    (ht : c.data.Settled t) (arg : Nat) :
    c.Settles before [] (c.require expected t arg) fun _ => expected = t := by
  unfold require
  rw [hexpected, ht.ground, Bool.and_self, if_pos rfl]
  split
  · rename_i hsame
    exact .pure fun _ => Ty.eq_of_same hsame
  · rename_i hsame
    refine .never (fun p p' hrun => by cases hrun) fun _ heq => hsame ?_
    rw [heq]
    exact Ty.same_self ht.mono

theorem not_returns_mismatch (pattern : TypeExpr) (hint : ParamKind) (actual : Ty) (arg : Nat)
    (p p' : Progress) : ¬Attempt.Returns (c.mismatch pattern hint actual arg) p () p' := by
  intro hrun
  obtain ⟨t, p₁, -, hthrow⟩ := Attempt.returns_bind_iff.1 hrun
  cases hthrow

theorem mono_denote {e : TypeExpr} {t : Ty} (D D' : Naming) (hD : D'.Extends D)
    (h : c.denote D e = some t) : c.denote D' e = some t :=
  DataTypes.denote_mono hD h

theorem cons_settles {pattern : TypeExpr} {patterns : List TypeExpr} {actual : Ty}
    {actuals : List Ty} {found more : List (String × ParamKind)} {first rest : Interpret Unit}
    (hfirst : c.Settles before found first fun D => c.denote D pattern = some actual)
    (hrest : c.Settles (before ++ found) more rest fun D => c.denoteList D patterns = some actuals) :
    c.Settles before (found ++ more)
      (do
        first
        rest)
      fun D => c.denoteList D (pattern :: patterns) = some (actual :: actuals) :=
  (hfirst.bind hrest mono_denote).congr fun D => by
    rw [DataTypes.denoteList_cons_eq_some_iff]
    simp

mutual

theorem matchType_settles (hclash : c.data.NoClash) (arg : Nat) (hint : ParamKind)
    (pattern : TypeExpr) {actual : Ty} (hactual : c.data.Settled actual)
    (before : List (String × ParamKind)) :
    c.Settles before (c.occurrences hint pattern) (c.matchType arg hint pattern actual)
      fun D => c.denote D pattern = some actual := by
  unfold matchType
  split
  · cases hactual.ground
  · cases hactual.ground
  · rename_i name _
    by_cases hparam : c.isParam name = true
    · rw [if_pos hparam, occurrences, if_pos hparam]
      exact (bindParam_settles name hint hactual arg).congr fun D => by
        rw [denote_named, if_pos hparam]
    · rw [if_neg hparam, occurrences, if_neg hparam, DataTypes.resolveClosed_named]
      have hnamed : ∀ D, c.denote D (.named name) = c.data.lookupName? name := fun D => by
        rw [denote_named, if_neg hparam]
      simp only [hnamed]
      cases hname : c.data.lookupName? name with
      | none => exact .never (fun p p' hrun => by cases hrun) fun _ h => by cases h
      | some expected =>
          have hground := DataTypes.isGround_of_lookupName? hname
          exact (require_settles hground hactual arg).congr fun _ => by rw [Option.some.injEq]
  · rename_i name params dataName constructor args
    split
    · rename_i hsame
      rw [Bool.and_eq_true, decide_eq_true_eq] at hsame
      refine (matchTypes_settles hclash arg name 0 params hactual.of_data hsame.2.symm
        before).congr fun D => ?_
      exact denote_app_iff hclash (Ty.formed_data_iff.1 hactual.formed).1 hsame.1
    · rename_i hsame
      refine .never (not_returns_mismatch _ _ _ _) fun D hdenote => hsame ?_
      obtain ⟨ts, hts, hname⟩ := DataTypes.denote_app_eq_some_iff.1 hdenote
      obtain ⟨_, _, heq, hsame⟩ := DataTypes.data_of_applyName hname
      cases heq
      rw [hsame, DataTypes.length_of_denoteList hts]
      simp
  · rename_i domain codomain a b
    rw [occurrences]
    refine ((matchType_settles hclash arg .type domain hactual.of_fn.1 before).bind
      (matchType_settles hclash arg .type codomain hactual.of_fn.2 _) mono_denote).congr
        fun D => ?_
    rw [DataTypes.denote_arrow_eq_some_iff]
    simp
  · exact (require_settles rfl hactual arg).congr fun D => Option.some_inj
  · exact (require_settles rfl hactual arg).congr fun D => Option.some_inj
  · exact .never (fun p p' hrun => by cases hrun) fun _ h => by cases h
  · refine .never (not_returns_mismatch _ _ _ _) fun D hdenote => ?_
    rename_i hnamed hnat htag hblank _ _ happ harrow
    cases pattern with
    | blank => exact hblank rfl
    | named name => exact hnamed name rfl
    | nat value => exact hnat value rfl
    | tag value => exact htag value rfl
    | app name params =>
        obtain ⟨ts, -, hname⟩ := DataTypes.denote_app_eq_some_iff.1 hdenote
        obtain ⟨dataName, constructor, rfl, -⟩ := DataTypes.data_of_applyName hname
        exact happ name params dataName constructor ts rfl rfl
    | arrow domain codomain =>
        obtain ⟨a, -, b, -, rfl⟩ := DataTypes.denote_arrow_eq_some_iff.1 hdenote
        exact harrow domain codomain a b rfl rfl
termination_by sizeOf pattern

theorem matchTypes_settles (hclash : c.data.NoClash) (arg : Nat) (name : String) (i : Nat)
    (patterns : List TypeExpr) {actuals : List Ty} (hactuals : ∀ t ∈ actuals, c.data.Settled t)
    (hlength : patterns.length = actuals.length) (before : List (String × ParamKind)) :
    c.Settles before (c.occurrencesList name i patterns)
      (c.matchTypes arg name i patterns actuals) fun D => c.denoteList D patterns = some actuals := by
  match patterns, actuals with
  | [], [] =>
      rw [matchTypes]
      · exact .pure fun _ => rfl
      · simp
  | [], actual :: actuals => simp at hlength
  | pattern :: patterns, [] => simp at hlength
  | pattern :: patterns, actual :: actuals =>
      rw [matchTypes, occurrencesList]
      rw [List.forall_mem_cons] at hactuals
      exact cons_settles (matchType_settles hclash arg _ pattern hactuals.1 before)
        (matchTypes_settles hclash arg name (i + 1) patterns hactuals.2 (Nat.succ.inj hlength) _)
termination_by sizeOf patterns

end

theorem matchArgs_settles (hclash : c.data.NoClash) (i : Nat) {patterns : List TypeExpr}
    {actuals : List Ty} (hactuals : ∀ t ∈ actuals, c.data.Settled t)
    (hlength : patterns.length = actuals.length) (before : List (String × ParamKind)) :
    c.Settles before (patterns.flatMap (c.occurrences .type)) (c.matchArgs i patterns actuals)
      fun D => c.denoteList D patterns = some actuals := by
  induction patterns generalizing i actuals before with
  | nil =>
      cases actuals with
      | nil =>
          rw [matchArgs]
          · exact .pure fun _ => rfl
          · simp
      | cons actual actuals => cases hlength
  | cons pattern patterns ih =>
      cases actuals with
      | nil => cases hlength
      | cons actual actuals =>
          rw [matchArgs, List.flatMap_cons]
          rw [List.forall_mem_cons] at hactuals
          exact cons_settles (matchType_settles hclash i .type pattern hactuals.1 before)
            (ih (i + 1) hactuals.2 (Nat.succ.inj hlength) _)

theorem returns_liftExcept_iff {α : Type} {x : Except Fault α} {p p' : Progress} {a : α} :
    Attempt.Returns (liftM x : Interpret α) p a p' ↔ x = .ok a ∧ p' = p := by
  rw [Attempt.Returns, Attempt.outcome_liftExcept, Prod.mk.injEq, @eq_comm _ p]

theorem returns_pure_iff {α : Type} {a b : α} {p p' : Progress} :
    Attempt.Returns (pure a : Interpret α) p b p' ↔ a = b ∧ p' = p := by
  rw [Attempt.Returns, Attempt.outcome_pure, Prod.mk.injEq, Except.ok.injEq, @eq_comm _ p]

mutual

/-- A strict call builds what the bindings make of a part of the signature, and binds nothing. -/
theorem returns_build_iff (hstrict : c.lenient = false) (arg : Nat) (hint : ParamKind)
    (e : TypeExpr) {p p' : Progress} {t : Ty} :
    Attempt.Returns (c.build .refuse arg hint e) p t p' ↔
      c.denote p.naming e = some t ∧ p' = p := by
  cases e with
  | blank =>
      constructor
      · exact fun h => by cases h
      · exact fun ⟨h, _⟩ => by cases h
  | named name =>
      rw [build, denote_named]
      split
      · rw [Attempt.Returns, Attempt.outcome_bind, Attempt.outcome_get, Progress.naming]
        cases hname : p.bindings.get? name with
        | none => simp [hname, unboundParam, hstrict]
        | some b => simp [hname, eq_comm]
      · rw [returns_liftExcept_iff, DataTypes.resolveClosed_named]
        cases c.data.lookupName? name with
        | none => simp
        | some u => simp
  | app name args =>
      rw [build, Attempt.returns_bind_iff, DataTypes.denote_app_eq_some_iff]
      simp only [returns_buildList_iff hstrict, returns_liftExcept_iff]
      grind
  | arrow domain codomain =>
      rw [build, DataTypes.denote_arrow_eq_some_iff]
      constructor
      · intro h
        obtain ⟨a, p₁, ha, h⟩ := Attempt.returns_bind_iff.1 h
        obtain ⟨b, p₂, hb, h⟩ := Attempt.returns_bind_iff.1 h
        cases h
        obtain ⟨ha, rfl⟩ := (returns_build_iff hstrict arg .type domain).1 ha
        obtain ⟨hb, rfl⟩ := (returns_build_iff hstrict arg .type codomain).1 hb
        exact ⟨⟨a, ha, b, hb, rfl⟩, rfl⟩
      · rintro ⟨⟨a, ha, b, hb, rfl⟩, rfl⟩
        have ha := (returns_build_iff hstrict arg .type domain).2 ⟨ha, rfl⟩
        have hb := (returns_build_iff hstrict arg .type codomain).2 ⟨hb, rfl⟩
        exact Attempt.returns_bind_iff.2 ⟨a, _, ha, Attempt.returns_bind_iff.2 ⟨b, _, hb, rfl⟩⟩
  | nat value => exact returns_pure_iff.trans (and_congr_left' Option.some_inj.symm)
  | tag value => exact returns_pure_iff.trans (and_congr_left' Option.some_inj.symm)

theorem returns_buildList_iff (hstrict : c.lenient = false) (arg : Nat) (name : String) (i : Nat)
    (es : List TypeExpr) {p p' : Progress} {ts : List Ty} :
    Attempt.Returns (c.buildList .refuse arg name i es) p ts p' ↔
      c.denoteList p.naming es = some ts ∧ p' = p := by
  match es with
  | [] => exact returns_pure_iff.trans (and_congr_left' Option.some_inj.symm)
  | e :: es =>
      rw [buildList, DataTypes.denoteList_cons_eq_some_iff]
      constructor
      · intro h
        obtain ⟨t, p₁, ht, h⟩ := Attempt.returns_bind_iff.1 h
        obtain ⟨us, p₂, hus, h⟩ := Attempt.returns_bind_iff.1 h
        cases h
        obtain ⟨ht, rfl⟩ := (returns_build_iff hstrict arg _ e).1 ht
        obtain ⟨hus, rfl⟩ := (returns_buildList_iff hstrict arg name (i + 1) es).1 hus
        exact ⟨⟨t, ht, us, hus, rfl⟩, rfl⟩
      · rintro ⟨⟨t, ht, us, hus, rfl⟩, rfl⟩
        have ht := (returns_build_iff hstrict arg (c.data.fieldKind name i) e).2 ⟨ht, rfl⟩
        have hus := (returns_buildList_iff hstrict arg name (i + 1) es).2 ⟨hus, rfl⟩
        exact Attempt.returns_bind_iff.2 ⟨t, _, ht, Attempt.returns_bind_iff.2 ⟨us, _, hus, rfl⟩⟩

end

mutual

theorem isSome_of_denote {D : Naming} (hint : ParamKind) {e : TypeExpr} {t : Ty}
    (h : c.denote D e = some t) : ∀ p ∈ c.occurrences hint e, (D p.1).isSome = true := by
  cases e with
  | blank | nat | tag => exact fun _ hp => absurd hp List.not_mem_nil
  | named name =>
      rw [denote_named] at h
      rw [occurrences]
      split
      · rename_i hparam
        rw [if_pos hparam] at h
        exact List.forall_mem_singleton.2 (by rw [h]; rfl)
      · exact fun _ hp => absurd hp List.not_mem_nil
  | app name args =>
      obtain ⟨ts, hts, -⟩ := DataTypes.denote_app_eq_some_iff.1 h
      rw [occurrences]
      exact isSome_of_denoteList name 0 hts
  | arrow domain codomain =>
      obtain ⟨a, ha, b, hb, -⟩ := DataTypes.denote_arrow_eq_some_iff.1 h
      rw [occurrences]
      exact List.forall_mem_append.2 ⟨isSome_of_denote .type ha, isSome_of_denote .type hb⟩

theorem isSome_of_denoteList {D : Naming} (name : String) (i : Nat) {es : List TypeExpr}
    {ts : List Ty} (h : c.denoteList D es = some ts) :
    ∀ p ∈ c.occurrencesList name i es, (D p.1).isSome = true := by
  match es with
  | [] => exact fun _ hp => absurd hp List.not_mem_nil
  | e :: es =>
      obtain ⟨t, ht, us, hus, -⟩ := DataTypes.denoteList_cons_eq_some_iff.1 h
      rw [occurrencesList]
      exact List.forall_mem_append.2
        ⟨isSome_of_denote _ ht, isSome_of_denoteList name (i + 1) hus⟩

end

mutual

theorem exists_denote_of_checkNames {r : Registry} (hdata : r.data = c.data) {D : Naming}
    (hint : ParamKind) {e : TypeExpr} (hwhole : e.isWhole = true)
    (hnames : r.checkNames (c.interface.params.map (·.name)) e = .ok ())
    (hD : ∀ p ∈ c.occurrences hint e, (D p.1).isSome = true) : ∃ t, c.denote D e = some t := by
  cases e with
  | blank => cases hwhole
  | named name =>
      rw [denote_named]
      rw [occurrences] at hD
      split
      · rename_i hparam
        rw [if_pos hparam] at hD
        exact Option.isSome_iff_exists.1 (hD (name, hint) (List.mem_singleton_self _))
      · rename_i hparam
        rw [Registry.checkNames, hdata] at hnames
        cases hname : c.data.lookupName? name with
        | some t => exact ⟨t, rfl⟩
        | none =>
            -- A name that stands for nothing is accepted only as a parameter.
            refine absurd ?_ hparam
            split at hnames
            · rename_i haccepted
              simpa [isParam, hname, List.any_eq] using haccepted
            · cases hnames
  | app name args =>
      rw [occurrences] at hD
      rw [Registry.checkNames, hdata] at hnames
      cases hkinds : c.data.fieldKinds? name with
      | none =>
          rw [hkinds] at hnames
          cases hnames
      | some kinds =>
          simp only [hkinds] at hnames
          split at hnames
          · rename_i hlength
            obtain ⟨ts, hts⟩ := exists_denoteList_of_checkNames hdata name 0 hwhole hnames hD
            obtain ⟨t, ht⟩ := DataTypes.exists_applyName_of_fieldKinds? hkinds
              (hlength.trans (DataTypes.length_of_denoteList hts).symm)
            exact ⟨t, DataTypes.denote_app_eq_some_iff.2 ⟨ts, hts, ht⟩⟩
          · cases hnames
  | arrow domain codomain =>
      rw [occurrences, List.forall_mem_append] at hD
      rw [Registry.checkNames] at hnames
      obtain ⟨_, hdomain, hcodomain⟩ := Except.bind_eq_ok_iff.1 hnames
      obtain ⟨hwholeA, hwholeB⟩ := Bool.and_eq_true_iff.1 hwhole
      obtain ⟨a, ha⟩ := exists_denote_of_checkNames hdata .type hwholeA hdomain hD.1
      obtain ⟨b, hb⟩ := exists_denote_of_checkNames hdata .type hwholeB hcodomain hD.2
      exact ⟨_, DataTypes.denote_arrow_eq_some_iff.2 ⟨a, ha, b, hb, rfl⟩⟩
  | nat value => exact ⟨_, rfl⟩
  | tag value => exact ⟨_, rfl⟩

theorem exists_denoteList_of_checkNames {r : Registry} (hdata : r.data = c.data) {D : Naming}
    (name : String) (i : Nat) {es : List TypeExpr} (hwhole : TypeExpr.isWholeList es = true)
    (hnames : r.checkNamesList (c.interface.params.map (·.name)) es = .ok ())
    (hD : ∀ p ∈ c.occurrencesList name i es, (D p.1).isSome = true) :
    ∃ ts, c.denoteList D es = some ts := by
  match es with
  | [] => exact ⟨[], rfl⟩
  | e :: es =>
      rw [occurrencesList, List.forall_mem_append] at hD
      rw [Registry.checkNamesList] at hnames
      obtain ⟨_, hfirst, hrest⟩ := Except.bind_eq_ok_iff.1 hnames
      obtain ⟨hwhole₁, hwhole₂⟩ := Bool.and_eq_true_iff.1 hwhole
      obtain ⟨t, ht⟩ := exists_denote_of_checkNames hdata _ hwhole₁ hfirst hD.1
      obtain ⟨ts, hts⟩ :=
        exists_denoteList_of_checkNames hdata name (i + 1) hwhole₂ hrest hD.2
      exact ⟨_, DataTypes.denoteList_cons_eq_some_iff.2 ⟨t, ht, ts, hts, rfl⟩⟩

end

theorem records_start (c : Call) (u : Supply) : c.Records [] ⟨u, ∅, []⟩ where
  kinds name := rfl
  values name b hb := by simp at hb
  constraints := rfl

theorem Records.paramKind?_eq {p : Progress}
    (hp : c.Records (c.operation.signature.splitArrow.1.flatMap (c.occurrences .type)) p)
    (name : String) : c.paramKind? name = (p.bindings.get? name).map (·.kind) :=
  (hp.kinds name).symm

variable {u u' : Supply} {o : Outcome} {D : Naming}

theorem exists_records_of_interpret (hclash : c.data.NoClash)
    (hargs : ∀ t ∈ c.args, c.data.Settled t) (hrun : Attempt.Returns c.interpret u o u') :
    ∃ p p' t, Attempt.Returns (c.matchArgs 0 c.operation.signature.splitArrow.1 c.args)
        ⟨u, ∅, []⟩ () p ∧
      Attempt.Returns (c.build .refuse c.args.length .type c.operation.signature.splitArrow.2)
        p t p' ∧
      o = ⟨t, p'.bindings, p'.constraints⟩ ∧
      c.Records (c.operation.signature.splitArrow.1.flatMap (c.occurrences .type)) p ∧
      c.denoteList p.naming c.operation.signature.splitArrow.1 = some c.args := by
  obtain ⟨hlength, p', hwalk, -⟩ := returns_interpret_iff.1 hrun
  obtain ⟨t, hreckon, ho⟩ := returns_walk_iff.1 hwalk
  obtain ⟨_, p, hmatch, hbuild⟩ := Attempt.returns_bind_iff.1 hreckon
  obtain ⟨hp, -, hparams⟩ :=
    (matchArgs_settles hclash 0 hargs hlength []).sound _ p (records_start c u) hmatch
  exact ⟨p, p', t, hmatch, hbuild, ho, hp, hparams⟩

theorem constraints_of_interpret (hclash : c.data.NoClash)
    (hargs : ∀ t ∈ c.args, c.data.Settled t) (hrun : Attempt.Returns c.interpret u o u') :
    o.constraints = [] := by
  obtain ⟨p, p', t, -, hbuild, rfl, hp, -⟩ := exists_records_of_interpret hclash hargs hrun
  have hleaves := (build_means (c := c) (N := fun _ => .blank) (leaving_mild []) .refuse
    c.args.length .type c.operation.signature.splitArrow.2 p hp.constraints).1
  rwa [hbuild] at hleaves

theorem assigns_of_interpret (hclash : c.data.NoClash) (hstrict : c.lenient = false)
    (hargs : ∀ t ∈ c.args, c.data.Settled t) (hrun : Attempt.Returns c.interpret u o u') :
    ∃ D, c.Assigns D := by
  obtain ⟨p, p', t, -, hbuild, -, hp, hparams⟩ := exists_records_of_interpret hclash hargs hrun
  obtain ⟨hresult, -⟩ := (returns_build_iff hstrict _ _ _).1 hbuild
  refine ⟨p.naming, ⟨fun name => ?_, fun name kind t hkind ht => ?_, hparams,
    isSome_of_denote .type hresult⟩⟩
  · rw [hp.paramKind?_eq, Progress.naming, Option.isSome_map, Option.isSome_map]
  · rw [hp.paramKind?_eq] at hkind
    obtain ⟨b, hb, rfl⟩ := Option.map_eq_some_iff.1 hkind
    rw [Progress.naming, hb] at ht
    cases ht
    exact (hp.values name b hb).2

theorem exists_matchArgs_of_assigns (hclash : c.data.NoClash)
    (hargs : ∀ t ∈ c.args, c.data.Settled t) (hD : c.Assigns D) (u : Supply) :
    ∃ p, Attempt.Returns (c.matchArgs 0 c.operation.signature.splitArrow.1 c.args)
        ⟨u, ∅, []⟩ () p ∧
      c.Records (c.operation.signature.splitArrow.1.flatMap (c.occurrences .type)) p ∧
      p.naming = D := by
  have hlength := DataTypes.length_of_denoteList hD.params
  have hsettles := matchArgs_settles hclash 0 hargs hlength.symm []
  have hfits : c.Fits (c.operation.signature.splitArrow.1.flatMap (c.occurrences .type)) D :=
    fun name kind t hname ht =>
      hD.kinds name (c.kindAt name kind) t (by rw [paramKind?, hname, Option.map_some]) ht
  obtain ⟨p, hmatch, hext⟩ := hsettles.complete ⟨u, ∅, []⟩ D (records_start c u)
    (fun _ _ h => by cases h) hfits hD.params
  obtain ⟨hp, -, -⟩ := hsettles.sound _ p (records_start c u) hmatch
  refine ⟨p, hmatch, hp, funext fun name => ?_⟩
  -- Both have a value for the parameters of the parameter types and for no other name.
  have hdomain := hD.domain name
  rw [hp.paramKind?_eq, Option.isSome_map, ← Option.isSome_map (f := ParamBinding.type)] at hdomain
  cases hname : p.naming name with
  | some t => exact (hext name t hname).symm
  | none =>
      rw [show (p.bindings.get? name).map (·.type) = none from hname] at hdomain
      exact (Option.not_isSome_iff_eq_none.1 (by rw [hdomain]; simp)).symm

theorem mem_bindingsOf {kind : ParamKind} {name : String} {t : Ty} :
    (name, t) ∈ o.bindingsOf kind ↔
      ∃ b, o.bindings.get? name = some b ∧ b.kind = kind ∧ b.type = t := by
  simp only [Outcome.bindingsOf, List.mem_map, List.mem_filter, SortedMap.get?_eq_some_iff,
    decide_eq_true_eq, Prod.mk.injEq, Prod.exists]
  grind

theorem checkNames_splitArrow {r : Registry} {params : List String} {e : TypeExpr}
    (h : r.checkNames params e = .ok ()) : r.checkNames params e.splitArrow.2 = .ok () := by
  match e with
  | .arrow domain codomain =>
      rw [Registry.checkNames] at h
      obtain ⟨_, -, hcodomain⟩ := Except.bind_eq_ok_iff.1 h
      exact checkNames_splitArrow (e := codomain) hcodomain
  | .blank | .named _ | .nat _ | .tag _ | .app _ _ => exact h

/-- Interpreting the call of an accepted operation whose arguments are known is exact matching. It
leaves nothing to unify. A strict call succeeds just when there is an assignment of the parameters;
its bindings are this assignment, each value under its kind, and its type is what the result stands
for under it. -/
theorem interpret_matches_exactly (c : Call) {r r' : Registry} (hdata : r.data = c.data)
    (hregister : r.registerStructure c.interface = .ok r')
    (hoperation : c.operation ∈ c.interface.operations)
    (hwhole : c.operation.signature.isWhole = true) (hclash : c.data.NoClash)
    (hargs : ∀ t ∈ c.args, c.data.Settled t) (u : Supply) :
    (∀ o, (Attempt.outcome c.interpret u).1 = .ok o → o.constraints = []) ∧
    (c.lenient = false →
      ((∃ o, (Attempt.outcome c.interpret u).1 = .ok o) ↔ ∃ D, c.Assigns D) ∧
      ∀ o D, (Attempt.outcome c.interpret u).1 = .ok o → c.Assigns D →
        (∀ kind name t, (name, t) ∈ o.bindingsOf kind ↔
          c.paramKind? name = some kind ∧ D name = some t) ∧
        c.denote D c.operation.signature.splitArrow.2 = some o.type) := by
  refine ⟨fun o hrun => constraints_of_interpret hclash hargs (Attempt.returns_of_fst hrun),
    fun hstrict => ⟨⟨?_, ?_⟩, ?_⟩⟩
  · rintro ⟨o, hrun⟩
    exact assigns_of_interpret hclash hstrict hargs (Attempt.returns_of_fst hrun)
  · rintro ⟨D, hD⟩
    obtain ⟨p, hmatch, -, rfl⟩ := exists_matchArgs_of_assigns hclash hargs hD u
    have hnames := (Registry.registerStructure_eq_ok_iff.1 hregister).1.signatures _ hoperation
    obtain ⟨t, ht⟩ := exists_denote_of_checkNames hdata .type
      (TypeExpr.isWhole_splitArrow hwhole).2 (checkNames_splitArrow hnames) hD.covers
    have hbuild := (returns_build_iff hstrict c.args.length .type _).2 ⟨ht, rfl⟩
    have hreckon : Attempt.Returns c.reckon ⟨u, ∅, []⟩ t p :=
      Attempt.returns_bind_iff.2 ⟨(), p, hmatch, hbuild⟩
    have hrun := returns_interpret_iff.2 ⟨(DataTypes.length_of_denoteList hD.params).symm, p,
      returns_walk_iff.2 ⟨t, hreckon, rfl⟩, rfl⟩
    exact ⟨_, congrArg Prod.fst hrun⟩
  · intro o D hrun hD
    obtain ⟨p, p', t, hmatch, hbuild, rfl, hp, -⟩ :=
      exists_records_of_interpret hclash hargs (Attempt.returns_of_fst hrun)
    obtain ⟨q, hmatch', -, rfl⟩ := exists_matchArgs_of_assigns hclash hargs hD u
    obtain rfl : p = q := congrArg Prod.snd (hmatch.symm.trans hmatch')
    obtain ⟨hresult, rfl⟩ := (returns_build_iff hstrict _ _ _).1 hbuild
    refine ⟨fun kind name t => ?_, hresult⟩
    rw [mem_bindingsOf, hp.paramKind?_eq, Progress.naming, Option.map_eq_some_iff,
      Option.map_eq_some_iff]
    constructor
    · rintro ⟨b, hb, hkind, ht⟩
      exact ⟨⟨b, hb, hkind⟩, b, hb, ht⟩
    · rintro ⟨⟨b, hb, hkind⟩, b', hb', ht⟩
      obtain rfl : b = b' := Option.some.inj (hb.symm.trans hb')
      exact ⟨b, hb, hkind, ht⟩

/-- An operation on two matrices of which only the numbers of rows may differ. -/
def stack : Operation :=
  ⟨"stack", .arrow (.app "Matrix" [.named "m", .named "n", .named "t"])
    (.arrow (.app "Matrix" [.named "k", .named "n", .named "t"])
      (.app "Matrix" [.named "m", .named "n", .named "t"])), false⟩

/-- A structure that declares one of the parameters of its operation. -/
def stackable : Structure := ⟨"Stackable", [⟨"m", some (.named "Nat")⟩], [stack], []⟩

/-- A matrix with three columns is put on one with some number of them. -/
def stacked (columns : Int) : Call :=
  { registry := matrices
    interface := stackable
    operation := stack
    args := [matrix (.nat 2) (.nat 3) .scalar, matrix (.nat 4) (.nat columns) .scalar]
    lenient := false }

theorem settled_stacked (columns : Int) : ∀ t ∈ (stacked columns).args, matrices.data.Settled t := by
  have hmatrix : ∀ rows columns, matrices.data.Settled (matrix (.nat rows) (.nat columns) .scalar) :=
    fun rows columns => ⟨rfl, rfl, forms_matrix (List.forall_mem_cons.2 ⟨Ty.formed_nat rows,
      List.forall_mem_cons.2 ⟨Ty.formed_nat columns, List.forall_mem_singleton.2 forms_scalar⟩⟩)⟩
  exact List.forall_mem_cons.2 ⟨hmatrix 2 3, List.forall_mem_singleton.2 (hmatrix 4 columns)⟩

theorem registerStructure_stackable : matrices.registerStructure stackable =
    .ok ⟨matrices.data, [StandardLibrary.matrixMultipliable, stackable], []⟩ := rfl

theorem dimensions_of_interpret_stacked :
    (Attempt.outcome (stacked 3).interpret (.startingAt 0)).1.toOption.map
      (·.bindingsOf .dimension) = some [("k", .nat 4), ("m", .nat 2), ("n", .nat 3)] := rfl

theorem interpret_stacked_eq_error : (Attempt.outcome (stacked 5).interpret (.startingAt 0)).1 =
    .error (.inconsistentDims (.operation "Stackable" "stack") (.nat 3) (.nat 5)
      ("(2,3)", "(4,5)")) := rfl

theorem interpret_matches_exactly_stack :
    (∃ o D, (Attempt.outcome (stacked 3).interpret (.startingAt 0)).1 = .ok o ∧
      (stacked 3).Assigns D ∧ D "n" = some (.nat 3) ∧ o.constraints = []) ∧
    ¬∃ D, (stacked 5).Assigns D := by
  have hmatches := fun columns => interpret_matches_exactly (stacked columns) rfl
    registerStructure_stackable (List.mem_singleton_self _) rfl noClash_matrices
    (settled_stacked columns) (.startingAt 0)
  constructor
  · have hrun := dimensions_of_interpret_stacked
    cases hresult : (Attempt.outcome (stacked 3).interpret (.startingAt 0)).1 with
    | error f =>
        rw [hresult] at hrun
        cases hrun
    | ok o =>
        rw [hresult] at hrun
        have hdims : o.bindingsOf .dimension = [("k", .nat 4), ("m", .nat 2), ("n", .nat 3)] :=
          Option.some.inj hrun
        obtain ⟨hnone, hstrict⟩ := hmatches 3
        obtain ⟨hiff, hexactly⟩ := hstrict rfl
        obtain ⟨D, hD⟩ := hiff.1 ⟨o, hresult⟩
        have hmem : ("n", Ty.nat 3) ∈ o.bindingsOf .dimension := by simp [hdims]
        exact ⟨o, D, rfl, hD, (((hexactly o D hresult hD).1 .dimension "n" (.nat 3)).1 hmem).2,
          hnone o hresult⟩
  · intro hexists
    obtain ⟨o, ho⟩ := ((hmatches 5).2 rfl).1.2 hexists
    cases interpret_stacked_eq_error.symm.trans ho

end Call

end Signature

end Formulary
