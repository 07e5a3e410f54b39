import Formulary.Proofs.Loading
import Formulary.Proofs.Principality
import Formulary.Proofs.Refining
import Formulary.Proofs.Usefulness

namespace Formulary

namespace DataTypes

variable {r : DataTypes}

theorem variant_of_instantiate {name : String} {u u' : Supply} {v : VariantInstance}
    (h : Attempt.Returns (r.instantiate name) u v u') :
    ∃ d w, r.variant? name = some (d, w) ∧ w.fields.length = v.fields.length := by
  unfold instantiate at h
  split at h
  · cases h
  · rename_i d w hvariant
    refine ⟨d, w, hvariant, ?_⟩
    split at h
    · obtain ⟨fields, u₁, hfields, h⟩ := Attempt.returns_bind_iff.1 h
      cases h
      exact (Attempt.returns_mapM hfields).length_eq
    · obtain ⟨params, u₁, -, h⟩ := Attempt.returns_bind_iff.1 h
      obtain ⟨fields, u₂, hfields, h⟩ := Attempt.returns_bind_iff.1 h
      cases h
      exact (Attempt.returns_mapM hfields).length_eq

end DataTypes

namespace Pattern

variable {r : DataTypes}

mutual

theorem hasArity_of_checkAfter {t t' : Typing} {p : Pattern} {expected : Ty} {u u' : Supply}
    (h : Attempt.Returns (checkAfter r t p expected) u t' u') :
    ∀ a ∈ p.applications, r.HasArity a := by
  cases p with
  | wildcard | var | const => exact fun a ha => absurd ha List.not_mem_nil
  | constructor name args =>
      rw [checkAfter] at h
      obtain ⟨v, u₁, hinstance, h⟩ := Attempt.returns_bind_iff.1 h
      obtain ⟨d, w, hvariant, hfields⟩ := DataTypes.variant_of_instantiate hinstance
      split at h
      · cases h
      · rename_i hlength
        obtain ⟨t₁, u₂, -, h⟩ := Attempt.returns_bind_iff.1 h
        rw [applications]
        refine List.forall_mem_cons.2 ⟨⟨d, w, hvariant, ?_⟩, ?_⟩
        · exact hfields.trans (not_ne_iff.1 hlength).symm
        · exact hasArity_of_checkListAfter (by simpa using hlength) h

theorem hasArity_of_checkListAfter {t t' : Typing} {ps : List Pattern} {fields : List Ty}
    {u u' : Supply} (hlength : ps.length = fields.length)
    (h : Attempt.Returns (checkListAfter r t ps fields) u t' u') :
    ∀ a ∈ applicationsList ps, r.HasArity a := by
  match ps, fields, hlength with
  | [], [], _ => exact fun a ha => absurd ha List.not_mem_nil
  | p :: ps, field :: fields, hlength =>
      rw [checkListAfter] at h
      obtain ⟨t₁, u₁, hfirst, hrest⟩ := Attempt.returns_bind_iff.1 h
      rw [applicationsList]
      intro a ha
      rcases List.mem_append.1 ha with ha | ha
      · exact hasArity_of_checkAfter hfirst a ha
      · exact hasArity_of_checkListAfter (Nat.succ.inj hlength) hrest a ha

end

theorem hasArity_of_check {t : Typing} {p : Pattern} {expected : Ty} {u u' : Supply}
    (h : Attempt.Returns (p.check r expected) u t u') : ∀ a ∈ p.applications, r.HasArity a := by
  obtain ⟨t₁, u₁, hcheck, -⟩ := Attempt.returns_bind_iff.1 h
  exact hasArity_of_checkAfter hcheck

end Pattern

theorem InhabitsAll.forall_mem_zip {r : DataTypes} {f : Ty → Ty} {values : List Expr} {ts : List Ty}
    (h : InhabitsAll r values (ts.map f)) : ∀ a ∈ values.zip ts, Inhabits r a.1 (f a.2) := by
  induction values generalizing ts with
  | nil => exact fun a ha => absurd ha List.not_mem_nil
  | cons value values ih =>
      cases ts with
      | nil => exact fun a ha => absurd ha List.not_mem_nil
      | cons t ts =>
          cases h with
          | cons hvalue hvalues => exact List.forall_mem_cons.2 ⟨hvalue, ih hvalues⟩

namespace DataTypes

variable {r : DataTypes} {θ : Valuation}

theorem FieldOfMeta.bind {f : Field} {t : Ty} (h : r.FieldOfMeta f t) (hθ : θ.IsMono) :
    r.FieldOfMeta f (t.bind θ) := by
  obtain ⟨declared, hdeclared, ht⟩ := h
  have hsame : declared.bind θ = declared :=
    Except.ok.inj ((resolveClosed_bind hdeclared).symm.trans hdeclared)
  refine ⟨declared, hdeclared, ?_⟩
  split at ht
  · rename_i hown
    rw [if_pos hown, ht, hsame]
  · rename_i hown
    rw [if_neg hown]
    exact Ty.isMono_bind ht fun x _ => hθ x

theorem bind_scopeOf (d : DataType) (params : List Ty) :
    (scopeOf d params).bind θ = scopeOf d (params.map (·.bind θ)) := by
  have hsome : (params.map (·.bind θ)).map some = (params.map some).map (Option.map (·.bind θ)) := by
    rw [List.map_map, List.map_map]
    rfl
  rw [scopeOf, scopeOf, hsome]
  exact List.zip_map_right.symm

theorem Builds.bind {name : String} {ts : List Ty} {t : Ty} (h : r.Builds name ts t)
    (hθ : θ.IsMono) : r.Builds name (ts.map (·.bind θ)) (t.bind θ) := by
  cases h with
  | ofMeta hvariant howner hfields =>
      rw [Ty.variant, Ty.bind, Ty.bindList_eq_map]
      exact .ofMeta hvariant howner
        (List.forall₂_map_right_iff.2 (hfields.imp fun f t hf => hf.bind hθ))
  | @ofData d v params ts hvariant howner hlength hmono hfields =>
      rw [Ty.instanceOf, Ty.bind, Ty.bindList_eq_map]
      refine .ofData hvariant howner (by rw [List.length_map, hlength]) (fun t ht => ?_) ?_
      · obtain ⟨p, hp, rfl⟩ := List.mem_map.1 ht
        exact Ty.isMono_bind (hmono p hp) fun x _ => hθ x
      · refine List.forall₂_map_right_iff.2 (hfields.imp fun f t hf => ?_)
        rw [← bind_scopeOf]
        exact resolveClosed_bind hf

end DataTypes

theorem Ty.isStatic_bind {t : Ty} (h : t.isStatic = true) (θ : Valuation) :
    (t.bind θ).isStatic = true := by
  cases t with
  | nat | tag | prim => rfl
  | _ => cases h

mutual

theorem Inhabits.bind {r : DataTypes} {θ : Valuation} (hθ : θ.IsMono) : ∀ {value : Expr} {t : Ty},
    Inhabits r value t → Inhabits r value (t.bind θ)
  | _, _, .scalar => .scalar
  | _, _, .static ht => .static (Ty.isStatic_bind ht θ)
  | _, _, .built hbuilt hargs hbuilds => .built hbuilt (InhabitsAll.bind hθ hargs) (hbuilds.bind hθ)

theorem InhabitsAll.bind {r : DataTypes} {θ : Valuation} (hθ : θ.IsMono) :
    ∀ {values : List Expr} {ts : List Ty}, InhabitsAll r values ts →
      InhabitsAll r values (ts.map (·.bind θ))
  | _, _, .nil => .nil
  | _, _, .cons hvalue hvalues => .cons (Inhabits.bind hθ hvalue) (InhabitsAll.bind hθ hvalues)

end

namespace Expr

mutual

/-- Whether an expression is built with literals and constructors alone, each constructor with one
argument for each of its fields. A name on its own that `known` tells is no constructor. -/
def isValue (r : DataTypes) (known : String → Bool) : Expr → Bool
  | .blank | .matching _ _ => false
  | .const _ => true
  | .object name => !known name &&
    match r.variant? name with
    | some (_, v) => v.fields.isEmpty
    | none => false
  | .operation name args =>
    (match r.variant? name with
      | some (_, v) => v.fields.length = args.length
      | none => false) && isValueList r known args

def isValueList (r : DataTypes) (known : String → Bool) : List Expr → Bool
  | [] => true
  | e :: es => e.isValue r known && isValueList r known es

end

mutual

theorem isWhole_of_isValue {r : DataTypes} {known : String → Bool} {e : Expr}
    (h : e.isValue r known = true) : e.isWhole = true := by
  cases e with
  | blank | matching => cases h
  | const | object => rfl
  | operation name args =>
      rw [isValue, Bool.and_eq_true] at h
      exact isWholeList_of_isValueList h.2

theorem isWholeList_of_isValueList {r : DataTypes} {known : String → Bool} {es : List Expr}
    (h : isValueList r known es = true) : isWholeList es = true := by
  cases es with
  | nil => rfl
  | cons e es =>
      rw [isValueList, Bool.and_eq_true] at h
      rw [isWholeList, Bool.and_eq_true]
      exact ⟨isWhole_of_isValue h.1, isWholeList_of_isValueList h.2⟩

end

end Expr

theorem DataTypes.kind_of_instantiate {r : DataTypes} {name : String} {u u' : Supply}
    {v : VariantInstance} (h : Attempt.Returns (r.instantiate name) u v u') {f : FieldInstance}
    (hf : f ∈ v.fields) (hkind : f.kind ≠ .type) :
    (∃ x, f.type = .var x) ∨ f.type.isStatic = true := by
  have hstatic : ∀ {t : Ty}, t.paramKind ≠ .type → t.isStatic = true := by
    intro t ht
    cases t with
    | prim => rfl
    | _ => exact absurd rfl ht
  unfold instantiate at h
  split at h
  · cases h
  · split at h
    · obtain ⟨fields, u₁, hfields, h⟩ := Attempt.returns_bind_iff.1 h
      cases h
      obtain ⟨field, -, s₁, s₂, hfield⟩ := exists_of_forall₂ (Attempt.returns_mapM hfields) hf
      obtain ⟨declared, s₃, -, hfield⟩ := Attempt.returns_bind_iff.1 hfield
      have hfield : Attempt.Returns (if isDeclared declared = true then _ else _) s₃ f s₂ := hfield
      split at hfield
      · cases hfield
        exact .inr (hstatic hkind)
      · cases hfield
        exact .inl ⟨_, rfl⟩
    · obtain ⟨params, u₁, -, h⟩ := Attempt.returns_bind_iff.1 h
      obtain ⟨fields, u₂, hfields, h⟩ := Attempt.returns_bind_iff.1 h
      cases h
      obtain ⟨field, -, s₁, s₂, hfield⟩ := exists_of_forall₂ (Attempt.returns_mapM hfields) hf
      obtain ⟨t, s₃, -, hfield⟩ := Attempt.returns_bind_iff.1 hfield
      cases hfield
      exact .inr (hstatic hkind)

/-- What steps that keep something leave behind when they return. -/
theorem Keeps.of_returns {σ ε α : Type} {w : Watch σ ε} {P : Upward} {A : α → Upward}
    {m : Attempt σ ε α} (h : Keeps w P m A) {s s' : σ} {a : α} (hrun : m.Returns s a s')
    (hu : (w.supply s').Unwrapped) (hs : w.sound s) (hP : P (w.supply s).next) :
    w.sound s' ∧ A a (w.supply s').next ∧ (w.supply s).next ≤ (w.supply s').next := by
  have hgrows := h.grows s
  have hkeeps := h.keeps s (hrun ▸ hu) hs hP
  rw [hrun] at hgrows hkeeps
  exact ⟨hkeeps.1, hkeeps.2, hu.next_le_next hgrows⟩

theorem Keeps.unwrapped_of_returns {σ ε α : Type} {w : Watch σ ε} {P : Upward} {A : α → Upward}
    {m : Attempt σ ε α} (h : Keeps w P m A) {s s' : σ} {a : α} (hrun : m.Returns s a s')
    (hu : (w.supply s').Unwrapped) : (w.supply s).Unwrapped := by
  have hgrows := h.grows s
  rw [hrun] at hgrows
  exact hu.of_le hgrows

namespace Inference

variable {s s' : State}

theorem Refines.apply_eq {α : Type} {m : Infer α} (h : Refines m) {a : α} (hrun : m.Returns s a s')
    (hs : s.Sound) {t : Ty} (ht : t.isMono = true) :
    s'.subst.apply t = s'.subst.apply (s.subst.apply t) := by
  have hrefined := h s
  rw [hrun] at hrefined
  exact hrefined.apply_eq hs.subst.1 hs.subst.2.monoRange ht

theorem inhabits_refined {r : DataTypes} {value : Expr} {t : Ty} {α : Type} {m : Infer α} {a : α}
    (h : Inhabits r value (s.subst.apply t)) (hm : Refines m) (hrun : m.Returns s a s')
    (hs : s.Sound) (hs' : s'.Sound) (ht : t.isMono = true) :
    Inhabits r value (s'.subst.apply t) := by
  rw [hm.apply_eq hrun hs ht, Subst.apply_eq_bind]
  exact Formulary.Inhabits.bind hs'.subst.2.monoRange h

theorem unify_makes_same {c : Context} {a b : Ty} (h : (unify c a b).Returns s () s') (hs : s.Sound)
    (ha : a.inScope s.supply.next) (hb : b.inScope s.supply.next) :
    s'.subst.apply a = s'.subst.apply b := by
  obtain ⟨line, houtcome⟩ := outcome_unify c a b s
  rw [Attempt.Returns, houtcome] at h
  cases hunify : Ty.unify (s.subst.apply a) (s.subst.apply b) with
  | error e =>
      rw [hunify] at h
      cases h
  | ok found =>
      rw [hunify] at h
      cases h
      have hfound := Ty.unify_mostGeneral (Subst.within_apply hs.subst.2 ha).1
        (Subst.within_apply hs.subst.2 hb).1 hunify
      show ((s.logged c line).subst.compose found).apply a =
        ((s.logged c line).subst.compose found).apply b
      rw [s.logged_subst, Subst.apply_compose _ _ ha.1, Subst.apply_compose _ _ hb.1,
        Subst.apply_eq_bind found, Subst.apply_eq_bind found]
      exact (unifies_cons.1 hfound.unifies).1

/-- What becomes of an argument for a field: its type is the type of the field, or it is a literal
that the type of the field stands for. -/
def Takes (s : Subst) (f : FieldInstance) (a : Expr × Ty) : Prop :=
  s.apply f.type = s.apply a.2 ∨ (∃ literal, a.1 = .const literal) ∧ (s.apply f.type).isStatic = true

theorem Takes.refined {f : FieldInstance} {a : Expr × Ty} {α : Type} {m : Infer α} {x : α}
    (h : Takes s.subst f a) (hm : Refines m) (hrun : m.Returns s x s') (hs : s.Sound)
    (hf : f.type.isMono = true) (ha : a.2.isMono = true) : Takes s'.subst f a := by
  rcases h with h | ⟨hliteral, hstatic⟩
  · left
    rw [hm.apply_eq hrun hs hf, hm.apply_eq hrun hs ha, h]
  · right
    rw [hm.apply_eq hrun hs hf, Subst.apply_eq_bind]
    exact ⟨hliteral, Ty.isStatic_bind hstatic _⟩

theorem isStatic_literal? {kind : ParamKind} {arg : Expr} {t : Ty} (h : literal? kind arg = some t) :
    t.isStatic = true ∧ ∃ literal, arg = .const literal := by
  unfold literal? at h
  split at h
  · obtain ⟨n, hn, rfl⟩ := Option.map_eq_some_iff.1 h
    refine ⟨rfl, ?_⟩
    unfold dimension? at hn
    split at hn
    · exact ⟨_, rfl⟩
    · cases hn
  · obtain ⟨value, -, rfl⟩ := Option.map_eq_some_iff.1 h
    exact ⟨rfl, _, rfl⟩
  · cases h

theorem not_returns_bindValue {c : Context} {r : DataTypes} {kind : ParamKind} {field actual : Ty}
    {refusal : Fault} {value : Expr} (h : Inhabits r value actual)
    (hvalue : ∀ literal, value ≠ .const literal) :
    ¬(bindValue c kind field refusal actual).Returns s () s' := by
  intro hrun
  cases h with
  | scalar => exact hvalue _ rfl
  | static => exact hvalue _ rfl
  | built _ _ hbuilds =>
      cases hbuilds with
      | ofMeta => cases hrun
      | ofData => cases hrun

theorem takes_of_bindField {c : Context} {v : VariantInstance} {index : Nat} {f : FieldInstance}
    {arg : Expr} {t : Ty} (hrun : (bindField c v index f arg t).Returns s () s') (hs : s.Sound)
    (hf : f.type.inScope s.supply.next) (ht : t.inScope s.supply.next)
    (hkind : f.kind ≠ .type → (∃ x, f.type = .var x) ∨ f.type.isStatic = true)
    (harg : Inhabits c.data arg (s.subst.apply t)) : Takes s'.subst f (arg, t) := by
  unfold bindField at hrun
  split at hrun
  · exact .inl (unify_makes_same hrun hs hf ht)
  · rename_i hne
    right
    split at hrun
    · rename_i value hvalue
      obtain ⟨hstatic, hliteral⟩ := isStatic_literal? hvalue
      refine ⟨hliteral, ?_⟩
      split at hrun
      · have hclosed : value.inScope s.supply.next := within_literal? hvalue
        rw [unify_makes_same hrun hs hf hclosed, Subst.apply_eq_bind]
        exact Ty.isStatic_bind hstatic _
      · rename_i hopen
        rcases hkind hne with ⟨x, htype⟩ | hstatic'
        · exact absurd htype (hopen x)
        · rw [Subst.apply_eq_bind]
          exact Ty.isStatic_bind hstatic' _
    · cases hrun
    · rename_i hconst _
      obtain ⟨actual, s₁, hknown, hrun⟩ := Attempt.returns_bind_iff.1 hrun
      cases hknown
      exact absurd hrun (not_returns_bindValue harg hconst)

theorem takes_of_bindFields {c : Context} {v : VariantInstance} {index : Nat}
    {fields : List FieldInstance} {args : List (Expr × Ty)}
    (hrun : (bindFields c v index fields args).Returns s () s') (hu : s'.supply.Unwrapped)
    (hs : s.Sound) (hfields : fieldsInScope fields s.supply.next)
    (hargs : argsInScope args s.supply.next)
    (hkinds : ∀ f ∈ fields, f.kind ≠ .type → (∃ x, f.type = .var x) ∨ f.type.isStatic = true)
    (hvalues : ∀ a ∈ args, Inhabits c.data a.1 (s.subst.apply a.2))
    (hlength : args.length = fields.length) :
    List.Forall₂ (Takes s'.subst) fields args := by
  induction fields generalizing index args s with
  | nil =>
      rw [List.eq_nil_of_length_eq_zero hlength]
      exact .nil
  | cons f fields ih =>
      cases args with
      | nil => cases hlength
      | cons a args =>
          rw [bindFields] at hrun
          obtain ⟨_, s₁, hfirst, hrest⟩ := Attempt.returns_bind_iff.1 hrun
          obtain ⟨hf, hfields⟩ := every_cons.1 hfields
          obtain ⟨ha, hargs⟩ := every_cons.1 hargs
          have hu₁ : s₁.supply.Unwrapped :=
            (bindFields_keeps c v (index + 1) fields args).unwrapped_of_returns hrest hu
          obtain ⟨hs₁, -, hle⟩ := (bindField_keeps c v index f a.1 a.2).of_returns hfirst hu₁ hs ⟨hf, ha⟩
          have htakes := takes_of_bindField hfirst hs hf ha (hkinds f (List.mem_cons_self ..))
            (hvalues a (List.mem_cons_self ..))
          refine .cons (htakes.refined (bindFields_refines c v _ _ _) hrest hs₁ hf.1 ha.1) ?_
          refine ih hrest hs₁ ((fieldsInScope fields).mono hle hfields)
            ((argsInScope args).mono hle hargs) (fun f hf => hkinds f (List.mem_cons_of_mem _ hf))
            (fun b hb => ?_) (Nat.succ.inj hlength)
          have hs₁' : s₁.Sound := hs₁
          exact inhabits_refined (hvalues b (List.mem_cons_of_mem _ hb))
            (bindField_refines c v index f a.1 a.2) hfirst hs hs₁' (hargs b hb).1

theorem returns_blaming {α : Type} {e : Expr} {steps : Infer α} {a : α} :
    (blaming e steps).Returns s a s' ↔ steps.Returns s a s' := by
  rw [Attempt.Returns, Attempt.Returns, outcome_blaming]
  cases steps.outcome s with
  | mk r s₁ =>
      cases r with
      | ok a' => exact Iff.rfl
      | error f => simp

theorem returns_fresh {α : Type} {steps : Fresh α} {a : α} (h : (fresh steps).Returns s a s') :
    ∃ supply, Attempt.Returns steps s.supply a supply ∧ s' = { s with supply } := by
  rw [Attempt.Returns, outcome_fresh, Prod.mk.injEq] at h
  exact ⟨_, Prod.ext h.1 rfl, h.2.symm⟩

theorem inhabitsAll_of_takes {r : DataTypes} {fields : List FieldInstance} {args : List (Expr × Ty)}
    {subst : Subst} (htakes : List.Forall₂ (Takes subst) fields args)
    (hvalues : ∀ a ∈ args, Inhabits r a.1 (subst.apply a.2)) :
    InhabitsAll r (args.map (·.1)) (fields.map (·.type.bind subst.image)) := by
  induction htakes with
  | nil => exact .nil
  | @cons f a fields args htake _ ih =>
      obtain ⟨hvalue, hvalues⟩ := List.forall_mem_cons.1 hvalues
      refine .cons ?_ (ih hvalues)
      show Inhabits r a.1 (f.type.bind subst.image)
      rw [← Subst.apply_eq_bind]
      rcases htake with hsame | ⟨⟨literal, hliteral⟩, hstatic⟩
      · rw [hsame]
        exact hvalue
      · rw [hliteral]
        exact .static hstatic

theorem builds_of_inferConstruction {c : Context} {e : Expr} {name : String}
    {args : List (Expr × Ty)} {t : Ty} (hrun : (inferConstruction c e name args).Returns s t s')
    (hu : s'.supply.Unwrapped) (hs : s.Sound) (hwhole : c.data.isWhole = true)
    (hargs : argsInScope args s.supply.next) (harity : c.data.HasArity (name, args.length))
    (hvalues : ∀ a ∈ args, Inhabits c.data a.1 (s.subst.apply a.2)) :
    ∃ ts, InhabitsAll c.data (args.map (·.1)) ts ∧ c.data.Builds name ts (s'.subst.apply t) := by
  unfold inferConstruction at hrun
  obtain ⟨v, s₁, hfirst, hrun⟩ := Attempt.returns_bind_iff.1 hrun
  obtain ⟨supply, hinstance, rfl⟩ := returns_fresh (returns_blaming.1 hfirst)
  have hlength : args.length = v.fields.length := by
    obtain ⟨d, w, hvariant, hfields⟩ := DataTypes.variant_of_instantiate hinstance
    obtain ⟨d', w', hvariant', hfields'⟩ := harity
    cases hvariant.symm.trans hvariant'
    exact hfields'.symm.trans hfields
  rw [if_pos hlength] at hrun
  obtain ⟨_, s₂, hfields, hknown⟩ := Attempt.returns_bind_iff.1 hrun
  cases hknown
  rw [returns_blaming] at hfields
  have hfinds := c.data.instantiate_finds name
  have hu₁ : supply.Unwrapped := (bindFields_keeps c v 0 v.fields args).unwrapped_of_returns hfields hu
  obtain ⟨-, hscope, hle⟩ := hfinds.toKeeps.of_returns hinstance hu₁ trivial hwhole
  have hs₁ : State.Sound { s with supply } := hs.advance (by
    have hgrows := hfinds.grows s.supply
    rwa [hinstance] at hgrows) hu₁
  have hargs₁ := (argsInScope args).mono hle hargs
  have htakes := takes_of_bindFields hfields hu hs₁ hscope.2 hargs₁
    (fun f hf => DataTypes.kind_of_instantiate hinstance hf) hvalues hlength
  obtain ⟨hs₂, -, -⟩ := (bindFields_keeps c v 0 v.fields args).of_returns hfields hu hs₁
    ⟨hscope.2, hargs₁⟩
  have hs₂ : s'.Sound := hs₂
  refine ⟨v.fields.map (·.type.bind s'.subst.image), ?_, ?_⟩
  · refine inhabitsAll_of_takes htakes fun a ha => ?_
    exact inhabits_refined (s := { s with supply }) (hvalues a ha)
      (bindFields_refines c v 0 v.fields args) hfields hs₁ hs₂ (hargs a ha).1
  · rw [hs₂.subst.1.apply_apply hscope.1.1, Subst.apply_eq_bind]
    exact ((hfinds.finds s.supply v supply hinstance trivial hu₁ hwhole).sound s'.subst.image .empty
      hs₂.subst.2.monoRange).2

mutual

theorem inhabits_of_infer {c : Context} {env : TypeEnv} {e : Expr} {t : Ty} {s s' : State}
    (hrun : (infer c env e).Returns s t s') (hu : s'.supply.Unwrapped) (hs : s.Sound)
    (hready : ready c env s.supply.next) (hvalue : e.isValue c.data (knows env) = true) :
    Inhabits c.data e (s'.subst.apply t) := by
  cases e with
  | blank | matching => cases hvalue
  | const literal =>
      cases hrun
      rw [Subst.apply_eq_bind]
      exact .scalar
  | object name =>
      rw [Expr.isValue, Bool.and_eq_true, Bool.not_eq_true'] at hvalue
      obtain ⟨hunknown, hvariant⟩ := hvalue
      have hnone : env.get? name = none := by simpa [knows] using hunknown
      split at hvariant
      · rename_i d v hv
        have hfields : v.fields = [] := List.isEmpty_iff.1 hvariant
        obtain ⟨written, fields⟩ := v
        subst hfields
        have hname : infer c env (.object name) = inferConstruction c (.object name) name [] := by
          rw [infer, inferName]
          simp only [hnone, hv]
        rw [hname] at hrun
        obtain ⟨ts, hargs, hbuilds⟩ := builds_of_inferConstruction hrun hu hs
          (Registry.isWhole_data hready.1) (every_nil _ _) ⟨d, _, hv, rfl⟩
          fun a ha => absurd ha List.not_mem_nil
        exact .built rfl hargs hbuilds
      · cases hvariant
  | operation name args =>
      rw [Expr.isValue, Bool.and_eq_true] at hvalue
      obtain ⟨hvariant, hvalues⟩ := hvalue
      split at hvariant
      · rename_i d v hv
        rw [infer] at hrun
        obtain ⟨types, s₁, hlist, hcall⟩ := Attempt.returns_bind_iff.1 hrun
        have hu₁ : s₁.supply.Unwrapped :=
          (inferCall_keeps c env name args types).unwrapped_of_returns hcall hu
        obtain ⟨hs₁, htypes, hle⟩ := (inferList_keeps c env args).of_returns hlist hu₁ hs
          ⟨hready, Expr.isWholeList_of_isValueList hvalues⟩
        have hargs := inhabitsAll_of_inferList hlist hu₁ hs hready hvalues
        have hlength : args.length = types.length := by simpa using hargs.length_eq
        rw [inferCall, if_pos (by simp [hv])] at hcall
        have harity : c.data.HasArity (name, (args.zip types).length) := by
          rw [List.length_zip, ← hlength, Nat.min_self]
          exact ⟨d, v, hv, of_decide_eq_true hvariant⟩
        obtain ⟨ts, hinhabits, hbuilds⟩ := builds_of_inferConstruction hcall hu hs₁
          (Registry.isWhole_data hready.1) (fun a ha => htypes a.2 (List.of_mem_zip ha).2) harity
          hargs.forall_mem_zip
        rw [List.map_fst_zip hlength.le] at hinhabits
        exact .built rfl hinhabits hbuilds
      · cases hvariant

theorem inhabitsAll_of_inferList {c : Context} {env : TypeEnv} {es : List Expr} {ts : List Ty}
    {s s' : State}
    (hrun : (inferList c env es).Returns s ts s') (hu : s'.supply.Unwrapped) (hs : s.Sound)
    (hready : ready c env s.supply.next) (hvalues : Expr.isValueList c.data (knows env) es = true) :
    InhabitsAll c.data es (ts.map s'.subst.apply) := by
  cases es with
  | nil =>
      cases hrun
      exact .nil
  | cons e es =>
      rw [Expr.isValueList, Bool.and_eq_true] at hvalues
      rw [inferList] at hrun
      obtain ⟨t, s₁, hfirst, hrun⟩ := Attempt.returns_bind_iff.1 hrun
      obtain ⟨us, s₂, hrest, hrun⟩ := Attempt.returns_bind_iff.1 hrun
      cases hrun
      have hu₁ : s₁.supply.Unwrapped := (inferList_keeps c env es).unwrapped_of_returns hrest hu
      obtain ⟨hs₁, ht, hle⟩ := (infer_keeps c env e).of_returns hfirst hu₁ hs
        ⟨hready, Expr.isWhole_of_isValue hvalues.1⟩
      have hready₁ := (ready c env).mono hle hready
      obtain ⟨hs₂, -, -⟩ := (inferList_keeps c env es).of_returns hrest hu hs₁
        ⟨hready₁, Expr.isWholeList_of_isValueList hvalues.2⟩
      refine .cons ?_ (inhabitsAll_of_inferList hrest hu hs₁ hready₁ hvalues.2)
      exact inhabits_refined (inhabits_of_infer hfirst hu₁ hs hready hvalues.1)
        (inferList_refines c env es) hrest hs₁ hs₂ ht.1

end

theorem hasArity_of_inferCases {c : Context} {env : TypeEnv} {e : Expr} {scrutinee : Ty}
    {result result' : Option Ty} {cases : List (Pattern × Expr)}
    (h : (inferCases c env e scrutinee result cases).Returns s result' s') :
    ∀ p ∈ cases.map (·.1), ∀ a ∈ p.applications, c.data.HasArity a := by
  induction cases generalizing s result with
  | nil => exact fun p hp => absurd hp List.not_mem_nil
  | cons first rest ih =>
      rw [inferCases] at h
      obtain ⟨bindings, s₁, hpattern, h⟩ := Attempt.returns_bind_iff.1 h
      obtain ⟨typing, supply, hcheck, -⟩ := returns_bindPattern hpattern
      obtain ⟨t, s₂, -, h⟩ := Attempt.returns_bind_iff.1 h
      rw [List.map_cons]
      refine List.forall_mem_cons.2 ⟨Pattern.hasArity_of_check hcheck, ?_⟩
      cases result with
      | none => exact ih h
      | some result =>
          obtain ⟨_, s₃, -, h⟩ := Attempt.returns_bind_iff.1 h
          exact ih h

theorem missing_of_reviewCases {c : Context} {e : Expr} {scrutinee : Ty} {ps : List Pattern}
    (hstrict : c.strict = true) (h : (reviewCases c e scrutinee ps).Returns s () s') :
    ∃ u, (Pattern.missing c.data ps scrutinee).run s.supply = ([], u) ∧ u ≤ s'.supply := by
  obtain ⟨missing, s₁, hfirst, h⟩ := Attempt.returns_bind_iff.1 h
  obtain ⟨u, hmissing, rfl⟩ := returns_fresh hfirst
  rw [Attempt.Returns, Attempt.outcome_liftState, Prod.mk.injEq, Except.ok.injEq] at hmissing
  cases missing with
  | nil =>
      refine ⟨u, Prod.ext hmissing.1 hmissing.2, ?_⟩
      have hgrows := (Keeps.forM (P := ⊤) (l := Pattern.unreachable ps) fun i _ =>
        warn_keeps (.unreachable (ps[i]?.getD .wildcard) i)).grows { s with supply := u }
      have h : Attempt.outcome ((Pattern.unreachable ps).forM fun i =>
        warn (.unreachable (ps[i]?.getD .wildcard) i)) { s with supply := u } = (.ok (), s') := h
      rwa [h] at hgrows
  | cons name rest =>
      rw [hstrict] at h
      cases h

theorem exists_accepts_of_strict {c : Context} {env : TypeEnv} {value : Expr}
    {cases : List (Pattern × Expr)} {t : Ty} (hstrict : c.strict = true)
    (hrun : (infer c env (.matching value cases)).Returns s t s') (hu : s'.supply.Unwrapped)
    (hs : s.Sound) (hready : ready c env s.supply.next) (hdistinct : c.data.Distinct)
    (hvalue : value.isValue c.data (knows env) = true)
    (hscalar : ∀ p ∈ cases.map (·.1), ∀ n, ("Scalar", n) ∉ p.applications) :
    ∃ p ∈ cases.map (·.1), p.accepts value = true := by
  have hwhole := isWhole_of_infer hrun
  rw [Expr.isWhole, Bool.and_eq_true] at hwhole
  rw [infer] at hrun
  split at hrun
  · cases hrun
  · obtain ⟨t₁, s₁, hscrutinee, hrun⟩ := Attempt.returns_bind_iff.1 hrun
    obtain ⟨result, s₂, hcases, hrun⟩ := Attempt.returns_bind_iff.1 hrun
    obtain ⟨t₂, s₃, hknown, hrun⟩ := Attempt.returns_bind_iff.1 hrun
    cases hknown
    obtain ⟨_, s₄, hreview, hrun⟩ := Attempt.returns_bind_iff.1 hrun
    cases hrun
    have hu₂ : s₂.supply.Unwrapped :=
      (reviewCases_keeps (P := ⊤) c _ _ _).unwrapped_of_returns hreview hu
    have hu₁ : s₁.supply.Unwrapped :=
      (inferCases_keeps c env _ t₁ none cases).unwrapped_of_returns hcases hu₂
    obtain ⟨hs₁, ht₁, hle₁⟩ := (infer_keeps c env value).of_returns hscrutinee hu₁ hs
      ⟨hready, hwhole.1⟩
    have hready₁ := (ready c env).mono hle₁ hready
    obtain ⟨hs₂, -, hle₂⟩ := (inferCases_keeps c env _ t₁ none cases).of_returns hcases hu₂ hs₁
      ⟨⟨hready₁, hwhole.2⟩, ht₁, every_nil _ _⟩
    have hs₂ : s₂.Sound := hs₂
    have hinhabits : Inhabits c.data value (s₂.subst.apply t₁) :=
      inhabits_refined (inhabits_of_infer hscrutinee hu₁ hs hready hvalue)
        (inferCases_refines c env _ t₁ none cases) hcases hs₁ hs₂ ht₁.1
    obtain ⟨u, hmissing, hle⟩ := missing_of_reviewCases hstrict hreview
    refine Pattern.exists_accepts_of_missing (Registry.isWhole_data hready.1) hdistinct hmissing
      (hu.of_le hle) (Subst.within_apply hs₂.subst.2 (t₁.inScope.mono hle₂ ht₁)) (fun p hp a ha => ?_)
      hinhabits
    exact ⟨fun hname => hscalar p hp a.2 (hname ▸ ha), hasArity_of_inferCases hcases p hp a ha⟩

end Inference

theorem Expr.isSome_select? {value : Expr} {cases : List (Pattern × Expr)}
    (h : ∃ p ∈ cases.map (·.1), p.accepts value = true) : (value.select? cases).isSome = true := by
  have hfrom : ∀ index, (value.selectFrom? index cases).isSome = true := by
    induction cases with
    | nil =>
        obtain ⟨p, hp, -⟩ := h
        exact absurd hp List.not_mem_nil
    | cons first rest ih =>
        intro index
        rcases first with ⟨p, body⟩
        rw [selectFrom?]
        have hmatches := Pattern.isSome_matchInto [] p value
        cases hp : p.matches? value with
        | some bindings => rfl
        | none =>
            rw [Pattern.matches?] at hp
            rw [hp] at hmatches
            refine ih ?_ (index + 1)
            obtain ⟨q, hq, haccepts⟩ := h
            rcases List.mem_cons.1 hq with rfl | hq
            · rw [← hmatches] at haccepts
              cases haccepts
            · exact ⟨q, hq, haccepts⟩
  exact hfrom 0

theorem DataTypes.distinct_of_register {r r' : DataTypes} {d : DataType}
    (h : r.register d = .ok r') (hr : r.Distinct) : r'.Distinct := by
  unfold register at h
  split at h
  · cases h
  · split at h
    · cases h
    · rename_i hnew
      split at h
      · cases h
      · split at h
        · cases h
        · cases h
          have hname : d.name ∉ r.types.map (·.name) := by
            intro hmem
            obtain ⟨d', hd', hname⟩ := List.mem_map.1 hmem
            refine hnew (List.find?_isSome.2 ⟨d', hd', by simpa using hname⟩)
          rw [Distinct, typeNames, List.map_append, List.nodup_append_comm]
          exact List.nodup_cons.2 ⟨hname, hr⟩

theorem Registry.distinct_of_registerAll {r r' : Registry} {decls : List Declaration}
    (h : r.registerAll decls = .ok r') (hr : r.data.Distinct) : r'.data.Distinct := by
  refine registerAll_keeps (P := (·.data.Distinct)) h hr fun d _ r₁ r₂ hdistinct hregister => ?_
  have hgains := register_gains r₁ d
  rw [hregister] at hgains
  cases d with
  | data d =>
      cases hdata : r₁.data.register d with
      | ok data =>
          rw [register, registerData, hdata] at hregister
          cases hregister
          exact DataTypes.distinct_of_register hdata hdistinct
      | error f =>
          rw [register, registerData, hdata] at hregister
          cases hregister
  | interface | implementation | definition =>
      rw [DataTypes.Distinct, DataTypes.typeNames, hgains.types]
      exact (List.append_nil r₁.data.types).symm ▸ hdistinct

namespace Checker

theorem Reachable.distinct {c : Checker} (h : c.Reachable) : c.registry.data.Distinct := by
  obtain ⟨ds, -, hds⟩ := h.registerAll
  exact Registry.distinct_of_registerAll hds List.nodup_nil

/-- A value that is built with literals and constructors, each with one argument for each of its
fields, is matched by some case when nothing is missing from the cases, or when the match has passed
a strict checker. The patterns do not name the constructor of scalars, which no literal is built
with. -/
theorem select_of_exhaustive {c : Checker} (hc : c.Reachable) {value : Expr}
    (hvalue : value.isValue c.registry.data (Inference.knows c.env) = true)
    {cases : List (Pattern × Expr)}
    (hscalar : ∀ p ∈ cases.map (·.1), ∀ n, ("Scalar", n) ∉ p.applications) :
    (∀ v c' u u', (check value).Returns c v c' →
      (∀ p ∈ cases.map (·.1), ∃ w typing w',
        Attempt.Returns (p.check c.registry.data v.type) w typing w') →
      c'.inference.supply ≤ u → u'.Unwrapped →
      (Pattern.missing c.registry.data (cases.map (·.1)) v.type).run u = ([], u') →
      (value.select? cases).isSome = true) ∧
    (c.options.strict = true → ∀ v c', (check (.matching value cases)).Returns c v c' →
      c'.Unexhausted → (value.select? cases).isSome = true) := by
  constructor
  · intro v c' u u' hcheck hpatterns hle hu' hmissing
    have hgrows := (check_keeps value).grows c
    rw [hcheck] at hgrows
    have hgrows' := Pattern.missing_grows c.registry.data (cases.map (·.1)) v.type u
    rw [hmissing] at hgrows'
    have hu := hu'.of_le hgrows'
    have hsupply : c'.inference.supply.Unwrapped := hu.of_le hle
    have hsound := hc.sound (hsupply.of_le hgrows)
    obtain ⟨t, s₁, hinfer, htype, lines, hstate⟩ := Inference.returns_inferExpr (returns_check hcheck)
    have hu₁ : s₁.supply.Unwrapped := by
      rw [hstate] at hsupply
      exact hsupply
    have hready : Inference.ready c.context c.env c.inference.reset.supply.next :=
      ⟨hsound.registry, hsound.env.1.inScope _⟩
    have hinhabits := Inference.inhabits_of_infer hinfer hu₁ hsound.inference.reset hready hvalue
    obtain ⟨hs₁, ht, -⟩ := (Inference.infer_keeps c.context c.env value).of_returns hinfer hu₁
      hsound.inference.reset ⟨hready, Expr.isWhole_of_isValue hvalue⟩
    have hnext : s₁.supply.next ≤ u.next := by
      rw [hstate] at hle
      exact hu.next_le_next hle
    have hscope : v.type.inScope u.next := by
      rw [htype]
      exact (Ty.inScope _).mono hnext (Subst.within_apply hs₁.subst.2 ht)
    refine Expr.isSome_select? (Pattern.exists_accepts_of_missing
      (Registry.isWhole_data hsound.registry) hc.distinct hmissing hu' hscope
      (fun p hp a ha => ⟨fun hname => hscalar p hp a.2 (hname ▸ ha), ?_⟩) (htype ▸ hinhabits))
    obtain ⟨_, _, _, hpattern⟩ := hpatterns p hp
    exact Pattern.hasArity_of_check hpattern a ha
  · intro hstrict v c' hcheck hc'
    have hgrows := (check_keeps (.matching value cases)).grows c
    rw [hcheck] at hgrows
    have hsupply := hc.unwrapped_of_le hgrows hc'
    have hsound := hc.sound (hsupply.of_le hgrows)
    obtain ⟨t, s₁, hinfer, -, lines, hstate⟩ := Inference.returns_inferExpr (returns_check hcheck)
    have hu₁ : s₁.supply.Unwrapped := by
      rw [hstate] at hsupply
      exact hsupply
    exact Expr.isSome_select? (Inference.exists_accepts_of_strict hstrict hinfer hu₁
      hsound.inference.reset ⟨hsound.registry, hsound.env.1.inScope _⟩ hc.distinct hvalue hscalar)

/-- A strict checker with one type of elements in a row and one of switches. -/
def shapes : Checker :=
  (create ⟨true, false, 0, true, false⟩).after
    [.load "shapes" "data Type = Vector(n: Nat, T: Type) data Switch(T) = Off | On(side: T)"]

/-- The cases for a switch that is on at some side, and for one that is off. -/
def switchCases : List (Pattern × Expr) :=
  [(.constructor "On" [.var "side"], .object "side"), (.constructor "Off" [], .const "0")]

set_option maxRecDepth 4000 in
def shapeSource : Source :=
  ⟨"data Type = Vector(n: Nat, T: Type) data Switch(T) = Off | On(side: T)", [
    .data ⟨"Type", [], [⟨"Vector", [⟨some "n", .named "Nat"⟩, ⟨some "T", .named "Type"⟩]⟩]⟩,
    .data ⟨"Switch", ["T"], [⟨"Off", []⟩, ⟨"On", [⟨some "side", .named "T"⟩]⟩]⟩], by cbv⟩

theorem shapes_eq :
    shapes = ((load shapeSource.decls).outcome (create ⟨true, false, 0, true, false⟩)).2 :=
  state_load_request shapeSource.reads ..

set_option maxRecDepth 4000 in
def switchPasses : shapes.Passing :=
  ⟨.matching (.operation "On" [.const "1"]) switchCases, ⟨.scalar, []⟩, by rw [shapes_eq]; cbv⟩

set_option maxRecDepth 4000 in
theorem select_of_exhaustive_switch :
    (check (.matching (.operation "On" [.const "1"]) switchCases)).Returns shapes
        ⟨.scalar, []⟩ ((check (.matching (.operation "On" [.const "1"]) switchCases)).outcome shapes).2 ∧
      ((Expr.operation "On" [.const "1"]).select? switchCases).isSome = true := by
  have hvalue : (Expr.operation "On" [.const "1"]).isValue shapes.registry.data
      (Inference.knows shapes.env) = true := by
    rw [shapes_eq]
    rfl
  have hscalar : ∀ p ∈ switchCases.map (·.1), ∀ n, ("Scalar", n) ∉ p.applications := by
    simp [switchCases, Pattern.applications, Pattern.applicationsList]
  have hstrict : shapes.options.strict = true := by
    rw [shapes_eq]
    rfl
  exact ⟨switchPasses.returns, (select_of_exhaustive ⟨_, _, rfl⟩ hvalue hscalar).2 hstrict _ _
    switchPasses.returns switchPasses.passes.2⟩

set_option maxRecDepth 4000 in
/-- A vector that is given with its elements in a row has more arguments than there are fields, so
that the pattern which covers all vectors does not match it. -/
theorem select_of_elements :
    let value := Expr.operation "Vector" [.const "2", .const "1", .const "2"]
    let cases := [(Pattern.constructor "Vector" [.var "n", .var "x"], Expr.const "0")]
    shapes.options.strict = true ∧
      ((check (.matching value cases)).outcome shapes).1 = .ok ⟨.scalar, []⟩ ∧
      (value.select? cases).isSome = false := by
  intro value cases
  rw [shapes_eq]
  refine ⟨rfl, ?_, rfl⟩
  cbv

end Checker

end Formulary
