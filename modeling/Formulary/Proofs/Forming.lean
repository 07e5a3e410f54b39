import Formulary.Proofs.Heads
import Formulary.Proofs.Registering

namespace Formulary

/-- What is asked of steps, whatever variables they hand out: what holds of their states, and how they
may fail. -/
structure Regime (σ ε : Type) where
  holds : σ → Prop
  allows : ε → Prop

section Upholding

variable {σ τ ε ε' α β : Type} {g : Regime σ ε} {p p' : α → Prop} {q : β → Prop}

/-- Steps that keep what holds, return nothing but what has a property, and fail only as they may. -/
def Upholds (g : Regime σ ε) (m : Attempt σ ε α) (p : α → Prop) : Prop :=
  ∀ s, g.holds s → g.holds (m.outcome s).2 ∧ Ends p g.allows (m.outcome s).1

namespace Upholds

theorem imp {m : Attempt σ ε α} (h : Upholds g m p) (hp : ∀ a, p a → p' a) : Upholds g m p' :=
  fun s hs => ⟨(h s hs).1, (h s hs).2.imp hp⟩

theorem pure {a : α} (h : p a) : Upholds g (pure a) p := fun _ hs => ⟨hs, h⟩

theorem throw {e : ε} (h : g.allows e) : Upholds g (throw e : Attempt σ ε α) p := fun _ hs => ⟨hs, h⟩

theorem get {p : σ → Prop} (h : ∀ s, g.holds s → p s) : Upholds g (get : Attempt σ ε σ) p :=
  fun s hs => ⟨hs, h s hs⟩

theorem modify {f : σ → σ} (h : ∀ s, g.holds s → g.holds (f s)) :
    Upholds g (modify f : Attempt σ ε PUnit) fun _ => True :=
  fun s hs => ⟨h s hs, trivial⟩

theorem ofExcept {r : Except ε α} (h : Ends p g.allows r) : Upholds g (liftM r : Attempt σ ε α) p :=
  fun _ hs => ⟨hs, h⟩

theorem bind {m : Attempt σ ε α} {f : α → Attempt σ ε β} (hm : Upholds g m p)
    (hf : ∀ a, p a → Upholds g (f a) q) : Upholds g (m >>= f) q := by
  intro s hs
  obtain ⟨hstate, hends⟩ := hm s hs
  rw [Attempt.outcome_bind]
  cases h : m.outcome s with
  | mk r s₁ =>
      rw [h] at hstate hends
      cases r with
      | ok a => exact hf a hends s₁ hstate
      | error e => exact ⟨hstate, hends⟩

theorem tryCatch {m : Attempt σ ε α} {f : ε → Attempt σ ε α} (hm : Upholds g m p)
    (hf : ∀ e, g.allows e → Upholds g (f e) p) : Upholds g (tryCatch m f) p := by
  intro s hs
  obtain ⟨hstate, hends⟩ := hm s hs
  rw [Attempt.outcome_tryCatch]
  cases h : m.outcome s with
  | mk r s₁ =>
      rw [h] at hstate hends
      cases r with
      | ok a => exact ⟨hstate, hends⟩
      | error e => exact hf e hends s₁ hstate

theorem ite {c : Prop} [Decidable c] {m m' : Attempt σ ε α} (hthen : c → Upholds g m p)
    (helse : ¬c → Upholds g m' p) : Upholds g (if c then m else m') p := by
  split
  · rename_i h
    exact hthen h
  · rename_i h
    exact helse h

theorem mapM {P : α → β → Prop} {f : α → Attempt σ ε β} {l : List α}
    (h : ∀ a ∈ l, Upholds g (f a) (P a)) : Upholds g (l.mapM f) (List.Forall₂ P l) := by
  induction l with
  | nil => exact .pure .nil
  | cons a l ih =>
      rw [List.forall_mem_cons] at h
      rw [List.mapM_cons]
      exact h.1.bind fun b hb => (ih h.2).bind fun bs hbs => .pure (.cons hb hbs)

theorem forM {f : α → Attempt σ ε PUnit} {l : List α}
    (h : ∀ a ∈ l, Upholds g (f a) fun _ => True) : Upholds g (l.forM f) fun _ => True := by
  induction l with
  | nil => exact .pure trivial
  | cons a l ih =>
      rw [List.forall_mem_cons] at h
      exact h.1.bind fun _ _ => ih h.2

theorem adapt {g' : Regime σ ε'} {m : Attempt σ ε α} {f : ε → ε'} (h : Upholds g m p)
    (hholds : g'.holds = g.holds) (hallows : ∀ e, g.allows e → g'.allows (f e)) :
    Upholds g' (ExceptT.adapt f m : Attempt σ ε' α) p := by
  intro s hs
  obtain ⟨hstate, hends⟩ := h s (hholds ▸ hs)
  rw [Attempt.outcome_adapt]
  refine ⟨hholds ▸ hstate, ?_⟩
  cases hr : (m.outcome s).1 with
  | ok a => simpa [hr, Ends, Except.mapError] using hends
  | error e => exact hallows e (by simpa [hr, Ends] using hends)

/-- Steps on a part of the state. -/
theorem zoom {k : Regime τ ε} {m : Attempt τ ε α} {part : σ → τ} {put : σ → τ → σ}
    (h : Upholds k m p) (hpart : ∀ s, g.holds s → k.holds (part s))
    (hput : ∀ s t, g.holds s → k.holds t → g.holds (put s t))
    (hallows : ∀ e, k.allows e → g.allows e) : Upholds g (Attempt.zoom part put m) p := by
  intro s hs
  obtain ⟨hstate, hends⟩ := h (part s) (hpart s hs)
  rw [Attempt.outcome_zoom]
  refine ⟨hput s _ hs hstate, ?_⟩
  cases hr : (m.outcome (part s)).1 with
  | ok a => simpa [hr, Ends] using hends
  | error e => exact hallows e (by simpa [hr, Ends] using hends)

end Upholds

end Upholding

theorem forall_of_forall₂ {α β : Type} {p : β → Prop} {l : List α} {bs : List β}
    (h : List.Forall₂ (fun _ b => p b) l bs) : ∀ b ∈ bs, p b := fun _ hb => by
  obtain ⟨_, -, hp⟩ := exists_of_forall₂ h hb
  exact hp

/-- A fault other than that two instances have different numbers of arguments. -/
def Fault.IsAligned : Fault → Prop
  | .unify e => e.IsAligned
  | _ => True

/-- Steps of which nothing is asked but that no number of arguments is at fault. -/
def aligned (σ : Type) : Regime σ Fault := ⟨fun _ => True, Fault.IsAligned⟩

namespace DataTypes

/-- An instance with the number of arguments that is declared for it: of a data type there is one for
each parameter, of a variant of the type of types one for each field. -/
def Declares (r : DataTypes) (h : Ty.Head) : Prop :=
  (h.constructor = h.name ∧ ∃ d ∈ r.find? h.name, d.params.length = h.arity) ∨
    (h.name = Ty.metaName ∧ ∃ v ∈ r.metaVariant? h.constructor, v.fields.length = h.arity)

instance (r : DataTypes) : DecidablePred r.Declares := fun h =>
  inferInstanceAs (Decidable ((h.constructor = h.name ∧
    ∃ d ∈ r.find? h.name, d.params.length = h.arity) ∨
      (h.name = Ty.metaName ∧ ∃ v ∈ r.metaVariant? h.constructor, v.fields.length = h.arity)))

/-- Every instance of a data type in a type is declared with its number of arguments. -/
abbrev Forms (r : DataTypes) (t : Ty) : Prop := t.Formed r.Declares

/-- The type of types is declared without parameters, its variants do not bear its own name, and the
scalar type is one of them without fields. -/
structure Grounded (r : DataTypes) : Prop where
  coherent : r.Coherent
  metaType : ∃ d ∈ r.find? Ty.metaName, d.params = [] ∧ Ty.metaName ∉ d.variants.map (·.name)
  scalar : ∃ v ∈ r.metaVariant? "Scalar", v.fields = []

variable {r r' : DataTypes}

theorem metaVariant?_eq_some_iff {name : String} {v : Variant} :
    r.metaVariant? name = some v ↔ ∃ d, r.variant? name = some (d, v) ∧ d.name = Ty.metaName := by
  unfold metaVariant?
  split
  · rename_i d v' hvariant
    rw [hvariant]
    split
    · rename_i hmeta
      simp only [Option.some.injEq, Prod.mk.injEq]
      constructor
      · rintro rfl
        exact ⟨d, ⟨rfl, rfl⟩, hmeta⟩
      · rintro ⟨_, ⟨-, rfl⟩, -⟩
        rfl
    · rename_i hmeta
      simp only [reduceCtorEq, Option.some.injEq, Prod.mk.injEq, false_iff, not_exists, not_and]
      rintro _ ⟨rfl, -⟩
      exact hmeta
  · rename_i hvariant
    simp [hvariant]

/-- An instance is declared with one number of arguments. -/
theorem Grounded.fixed (hr : r.Grounded) : Ty.Head.Fixed r.Declares := by
  obtain ⟨type, htype, -, hname⟩ := hr.metaType
  -- a variant that bears the name of the type of types would be one of its own
  have hnone : ∀ v ∈ r.metaVariant? Ty.metaName, False := by
    intro v hv
    obtain ⟨d, hvariant, hmeta⟩ := metaVariant?_eq_some_iff.1 hv
    obtain ⟨hd, hmem, hnamed⟩ := mem_of_variant? hvariant
    have hfind := hr.coherent.find?_eq_some_iff.2 ⟨hd, hmeta⟩
    obtain rfl : type = d := Option.some.inj (htype.symm.trans hfind)
    exact hname (hnamed ▸ List.mem_map_of_mem hmem)
  rintro name constructor m n (⟨heq, d, hd, hm⟩ | ⟨hmeta, v, hv, hm⟩)
    (⟨heq', d', hd', hn⟩ | ⟨hmeta', v', hv', hn⟩)
  · obtain rfl : d = d' := Option.some.inj (hd.symm.trans hd')
    exact hm.symm.trans hn
  · dsimp only at heq hmeta' hv'
    exact (hnone v' (hmeta' ▸ heq ▸ hv')).elim
  · dsimp only at heq' hmeta hv
    exact (hnone v (hmeta ▸ heq' ▸ hv)).elim
  · obtain rfl : v = v' := Option.some.inj (hv.symm.trans hv')
    exact hm.symm.trans hn

theorem Grounded.forms_scalar (hr : r.Grounded) : r.Forms .scalar := by
  obtain ⟨v, hv, hfields⟩ := hr.scalar
  exact Ty.formed_scalar (.inr ⟨rfl, v, hv, by rw [hfields]; rfl⟩)

theorem find?_of_prefix (h : r.types <+: r'.types) {name : String} {d : DataType}
    (hfind : r.find? name = some d) : r'.find? name = some d := by
  obtain ⟨more, hmore⟩ := h
  rw [find?_of_append hmore.symm, hfind]
  rfl

theorem metaVariant?_of_prefix (h : r.types <+: r'.types) {name : String} {v : Variant}
    (hmeta : r.metaVariant? name = some v) : r'.metaVariant? name = some v := by
  obtain ⟨more, hmore⟩ := h
  obtain ⟨d, hvariant, hname⟩ := metaVariant?_eq_some_iff.1 hmeta
  refine metaVariant?_eq_some_iff.2 ⟨d, ?_, hname⟩
  rw [variant?_of_append hmore.symm, hvariant]
  rfl

theorem Declares.mono (h : r.types <+: r'.types) {head : Ty.Head} (hr : r.Declares head) :
    r'.Declares head := by
  rcases hr with ⟨hname, d, hd, harity⟩ | ⟨hname, v, hv, harity⟩
  · exact .inl ⟨hname, d, find?_of_prefix h hd, harity⟩
  · exact .inr ⟨hname, v, metaVariant?_of_prefix h hv, harity⟩

theorem Grounded.mono (h : r.types <+: r'.types) (hr : r.Grounded) (hr' : r'.Coherent) :
    r'.Grounded := by
  obtain ⟨d, hd, htype⟩ := hr.metaType
  obtain ⟨v, hv, hscalar⟩ := hr.scalar
  exact ⟨hr', ⟨d, find?_of_prefix h hd, htype⟩, ⟨v, metaVariant?_of_prefix h hv, hscalar⟩⟩

theorem Grounded.forms_of_lookupName? (hr : r.Grounded) {name : String} {t : Ty}
    (h : r.lookupName? name = some t) : r.Forms t := by
  unfold lookupName? at h
  split at h
  · rename_i params _ hfind
    cases h
    exact Ty.formed_data_iff.2 ⟨.inl ⟨rfl, _, hfind, rfl⟩, List.forall_mem_nil _⟩
  · split at h
    · rename_i hmeta
      cases h
      exact Ty.formed_data_iff.2 ⟨.inr ⟨rfl, _, hmeta, rfl⟩, List.forall_mem_nil _⟩
    · obtain ⟨before, after, hnames, -⟩ := List.lookup_eq_some_iff.1 h
      have hmem : (name, t) ∈ builtinNames := by simp [hnames]
      simp only [builtinNames, List.mem_cons, Prod.mk.injEq, List.not_mem_nil, or_false] at hmem
      rcases hmem with ⟨-, rfl⟩ | ⟨-, rfl⟩ | ⟨-, rfl⟩ | ⟨-, rfl⟩ | ⟨-, rfl⟩ | ⟨-, rfl⟩
      · exact hr.forms_scalar
      · exact hr.forms_scalar
      all_goals exact Ty.formed_prim _

theorem applyName_forms {name : String} {args : List Ty} (h : ∀ t ∈ args, r.Forms t) :
    Ends r.Forms Fault.IsAligned (r.applyName name args) := by
  unfold applyName
  split
  · rename_i d hfind
    split
    · rename_i hlength
      exact Ty.formed_data_iff.2 ⟨.inl ⟨rfl, d, hfind, hlength⟩, h⟩
    · trivial
  · split
    · rename_i v hmeta
      split
      · rename_i hlength
        exact Ty.formed_data_iff.2 ⟨.inr ⟨rfl, v, hmeta, hlength⟩, h⟩
      · trivial
    · trivial

theorem freeParam_forms (name : String) : Upholds (aligned NamedVars) (freeParam name) r.Forms :=
  fun _ _ => ⟨trivial, Ty.formed_var _⟩

/-- What a scope binds is formed as declared. -/
def FormsScope (r : DataTypes) (scope : Scope) : Prop := ∀ name t, (name, some t) ∈ scope → r.Forms t

theorem formsScope_nil : r.FormsScope [] := fun _ _ h => absurd h List.not_mem_nil

mutual

theorem Grounded.resolve_forms (hr : r.Grounded) {scope : Scope} (hscope : r.FormsScope scope)
    (free : Bool) (e : TypeExpr) : Upholds (aligned NamedVars) (r.resolve scope free e) r.Forms := by
  cases e with
  | blank => exact .throw trivial
  | named name =>
      rw [resolve]
      split
      · rename_i t hlookup
        obtain ⟨before, after, hbound, -⟩ := List.lookup_eq_some_iff.1 hlookup
        exact .pure (hscope name t (by simp [hbound]))
      · exact .ite (fun _ => freeParam_forms name) fun _ => .throw trivial
      · split
        · rename_i t hlookup
          exact .pure (hr.forms_of_lookupName? hlookup)
        · exact .ite (fun _ => freeParam_forms name) fun _ => .throw trivial
  | app name args =>
      rw [resolve]
      exact (hr.resolveList_forms hscope free args).bind fun ts hts => .ofExcept (applyName_forms hts)
  | arrow domain codomain =>
      rw [resolve]
      refine (hr.resolve_forms hscope free domain).bind fun a ha => ?_
      refine (hr.resolve_forms hscope free codomain).bind fun b hb => ?_
      exact .pure (Ty.formed_fn_iff.2 ⟨ha, hb⟩)
  | nat value => exact .pure (Ty.formed_nat value)
  | tag value => exact .pure (Ty.formed_tag value)

theorem Grounded.resolveList_forms (hr : r.Grounded) {scope : Scope}
    (hscope : r.FormsScope scope) (free : Bool) (es : List TypeExpr) :
    Upholds (aligned NamedVars) (r.resolveList scope free es) fun ts => ∀ t ∈ ts, r.Forms t := by
  match es with
  | [] => exact .pure (List.forall_mem_nil _)
  | e :: es =>
      rw [resolveList]
      refine (hr.resolve_forms hscope free e).bind fun t ht => ?_
      refine (hr.resolveList_forms hscope free es).bind fun ts hts => ?_
      exact .pure (List.forall_mem_cons.2 ⟨ht, hts⟩)

end

theorem Grounded.resolveClosed_forms (hr : r.Grounded) {scope : Scope}
    (hscope : r.FormsScope scope) (e : TypeExpr) :
    Ends r.Forms Fault.IsAligned (r.resolveClosed scope e) :=
  (hr.resolve_forms hscope false e ⟨.startingAt 0, []⟩ trivial).2

end DataTypes

/-- Whatever variables are handed out, that is nothing to a type. -/
theorem liftState_upholds {σ α : Type} {p : α → Prop} {x : StateM σ α} (h : ∀ s, p (x.run s).1) :
    Upholds (aligned σ) (liftM x : Attempt σ Fault α) p := fun s _ => ⟨trivial, h s⟩

/-- The types of a variant are formed as declared. -/
def DataTypes.FormsVariant (r : DataTypes) (v : VariantInstance) : Prop :=
  r.Forms v.result ∧ ∀ f ∈ v.fields, r.Forms f.type

namespace DataTypes

variable {r : DataTypes}

theorem Grounded.metaField_forms (hr : r.Grounded) (f : Field) :
    Upholds (aligned Supply) (r.metaField f) fun i => r.Forms i.type := by
  unfold metaField
  refine .bind (.ofExcept (hr.resolveClosed_forms formsScope_nil f.type)) fun declared hdeclared => ?_
  refine .ite (fun _ => .pure hdeclared) fun _ => ?_
  exact (liftState_upholds (p := fun _ => True) fun _ => trivial).bind fun id _ =>
    .pure (Ty.formed_var id)

/-- A variant takes a type for each of its fields, and what it builds has an argument for each
parameter of its data type or, if it is a variant of the type of types, for each of its fields. -/
theorem Grounded.instantiate_forms (hr : r.Grounded) (name : String) :
    Upholds (aligned Supply) (r.instantiate name) r.FormsVariant := by
  unfold instantiate
  split
  · exact .throw trivial
  · rename_i d v hvariant
    refine .ite (fun hmeta => ?_) fun hmeta => ?_
    · refine (Upholds.mapM fun f _ => hr.metaField_forms f).bind fun fields hfields => .pure ⟨?_, ?_⟩
      · refine Ty.formed_data_iff.2 ⟨.inr ⟨rfl, v, ?_, ?_⟩, ?_⟩
        · exact metaVariant?_eq_some_iff.2 ⟨d, hvariant, hmeta⟩
        · rw [List.length_map, hfields.length_eq]
        · exact List.forall_mem_map.2 (forall_of_forall₂ hfields)
      · exact forall_of_forall₂ hfields
    · have hparams : Upholds (aligned Supply)
          (d.params.mapM fun p => do return (p, Ty.var (← (liftM Supply.fresh : Fresh Int))))
          (List.Forall₂ (fun _ b => r.Forms b.2) d.params) :=
        .mapM fun p _ => (liftState_upholds (p := fun _ => True) fun _ => trivial).bind fun id _ =>
          .pure (Ty.formed_var id)
      refine hparams.bind fun params hparams => ?_
      have hscope : r.FormsScope (params.map fun b => (b.1, some b.2)) := by
        intro p t hmem
        obtain ⟨b, hb, heq⟩ := List.mem_map.1 hmem
        cases heq
        exact forall_of_forall₂ hparams b hb
      have hfields : Upholds (aligned Supply)
          (v.fields.mapM fun f => do
            let t ← (liftM (r.resolveClosed (params.map fun b => (b.1, some b.2)) f.type) : Fresh Ty)
            return (⟨f.label, t, t.paramKind⟩ : FieldInstance))
          (List.Forall₂ (fun _ i => r.Forms i.type) v.fields) :=
        .mapM fun f _ => .bind (.ofExcept (hr.resolveClosed_forms hscope f.type)) fun t ht => .pure ht
      refine hfields.bind fun fields hfields => .pure ⟨?_, forall_of_forall₂ hfields⟩
      refine Ty.formed_data_iff.2 ⟨.inl ⟨rfl, d, ?_, ?_⟩, ?_⟩
      · exact hr.coherent.find?_eq_some_iff.2 ⟨(mem_of_variant? hvariant).1, rfl⟩
      · rw [List.length_map, hparams.length_eq]
      · exact List.forall_mem_map.2 (forall_of_forall₂ hparams)

end DataTypes

namespace Pattern

variable {r : DataTypes}

/-- What is known while a pattern is checked is formed as declared. -/
structure Typing.Formed (r : DataTypes) (t : Typing) : Prop where
  subst : t.subst.Formed r.Declares
  bindings : ∀ name u, t.bindings.get? name = some u → r.Forms u

theorem Typing.start_formed : Typing.start.Formed r where
  subst := Subst.formed_empty
  bindings _ _ h := by simp [start] at h

theorem require_forms (hr : r.Grounded) {t : Typing} (ht : t.Formed r) {expected actual : Ty}
    (hexpected : r.Forms expected) (hactual : r.Forms actual) :
    Ends (Typing.Formed r) Fault.IsAligned (t.require expected actual) := by
  have hunify := Ty.unify_ends hr.fixed (ht.subst.apply hexpected) hactual
  unfold Typing.require
  split
  · rename_i next heq
    rw [heq] at hunify
    exact { ht with subst := ht.subst.compose hunify }
  · rename_i e heq
    rw [heq] at hunify
    exact hunify

mutual

theorem checkAfter_forms (hr : r.Grounded) {t : Typing} (ht : t.Formed r) (p : Pattern)
    {expected : Ty} (hexpected : r.Forms expected) :
    Upholds (aligned Supply) (checkAfter r t p expected) (Typing.Formed r) := by
  match p with
  | .wildcard => exact .pure ht
  | .var name =>
      rw [checkAfter]
      refine .ite (fun _ => .throw trivial) fun _ => .pure { ht with bindings := fun other u hu => ?_ }
      rw [SortedMap.get?_insert] at hu
      split at hu
      · cases hu
        exact hexpected
      · exact ht.bindings other u hu
  | .const value =>
      rw [checkAfter]
      exact .ofExcept (require_forms hr ht hexpected hr.forms_scalar)
  | .constructor name args =>
      rw [checkAfter]
      refine (hr.instantiate_forms name).bind fun v hv => ?_
      refine .ite (fun _ => .bind (p := fun _ => True) (.throw trivial) fun _ _ => ?_) fun _ => ?_
      all_goals
        refine .bind (.ofExcept (require_forms hr ht hexpected hv.1)) fun t' ht' => ?_
        exact checkListAfter_forms hr ht' args (List.forall_mem_map.2 hv.2)

theorem checkListAfter_forms (hr : r.Grounded) {t : Typing} (ht : t.Formed r) (ps : List Pattern)
    {fields : List Ty} (hfields : ∀ u ∈ fields, r.Forms u) :
    Upholds (aligned Supply) (checkListAfter r t ps fields) (Typing.Formed r) := by
  match ps, fields with
  | [], _ =>
      rw [checkListAfter]
      · exact .pure ht
      · simp
  | p :: ps, [] =>
      rw [checkListAfter]
      · exact .pure ht
      · simp
  | p :: ps, field :: fields =>
      rw [List.forall_mem_cons] at hfields
      rw [checkListAfter]
      exact (checkAfter_forms hr ht p (ht.subst.apply hfields.1)).bind fun t' ht' =>
        checkListAfter_forms hr ht' ps hfields.2

end

theorem check_forms (hr : r.Grounded) (p : Pattern) {expected : Ty} (hexpected : r.Forms expected) :
    Upholds (aligned Supply) (p.check r expected) (Typing.Formed r) := by
  refine (checkAfter_forms hr Typing.start_formed p hexpected).bind fun t ht =>
    .pure { ht with bindings := fun name u hu => ?_ }
  rw [SortedMap.get?_mapValues, Option.map_eq_some_iff] at hu
  obtain ⟨u', hu', rfl⟩ := hu
  exact ht.subst.apply (ht.bindings name u' hu')

end Pattern

namespace Signature

/-- Interpreting a call where all types are formed as declared. -/
def interpreting (r : DataTypes) : Regime Progress Fault where
  holds p := (∀ name b, p.bindings.get? name = some b → r.Forms b.type) ∧
    ∀ k ∈ p.constraints, r.Forms k.expected ∧ r.Forms k.actual
  allows := Fault.IsAligned

namespace Call

variable {c : Call}

theorem bindTo_forms {r : DataTypes} (name : String) {b : ParamBinding} (hb : r.Forms b.type) :
    Upholds (interpreting r) (bindTo name b) fun _ => True := by
  refine .modify fun p hp => ⟨fun other b' hb' => ?_, hp.2⟩
  rw [SortedMap.get?_insert] at hb'
  split at hb'
  · cases hb'
    exact hb
  · exact hp.1 other b' hb'

theorem constrain_forms {r : DataTypes} {expected actual : Ty} (hexpected : r.Forms expected)
    (hactual : r.Forms actual) (arg : Nat) :
    Upholds (interpreting r) (constrain expected actual arg) fun _ => True := by
  refine .modify fun p hp => ⟨hp.1, fun k hk => ?_⟩
  rcases List.mem_append.1 hk with hk | hk
  · exact hp.2 k hk
  · obtain rfl := List.mem_singleton.1 hk
    exact ⟨hexpected, hactual⟩

theorem freshVar_forms {r : DataTypes} : Upholds (interpreting r) freshVar r.Forms :=
  fun _ hp => ⟨hp, Ty.formed_var _⟩

theorem bindings_form {r : DataTypes} : Upholds (interpreting r) (get : Interpret Progress)
    fun p => ∀ name b, p.bindings.get? name = some b → r.Forms b.type :=
  .get fun _ hp => hp.1

theorem unboundParam_forms (hc : c.data.Grounded) (mode : Unbound) (name : String)
    (kind : ParamKind) (arg : Nat) :
    Upholds (interpreting c.data) (c.unboundParam mode name kind arg) c.data.Forms := by
  cases mode with
  | fresh =>
      refine freshVar_forms.bind fun t ht => ?_
      exact (bindTo_forms name (b := ⟨kind, t, arg⟩) ht).bind fun _ _ => .pure ht
  | refuse =>
      rw [unboundParam]
      refine .ite (fun _ => ?_) fun _ => .throw trivial
      exact (bindTo_forms name (b := ⟨kind, .scalar, arg⟩) hc.forms_scalar).bind fun _ _ =>
        .pure hc.forms_scalar

mutual

theorem build_forms (hc : c.data.Grounded) (mode : Unbound) (arg : Nat) (hint : ParamKind)
    (e : TypeExpr) : Upholds (interpreting c.data) (c.build mode arg hint e) c.data.Forms := by
  cases e with
  | blank => exact .throw trivial
  | named name =>
      rw [build]
      refine .ite (fun _ => ?_) fun _ => .ofExcept (hc.resolveClosed_forms DataTypes.formsScope_nil _)
      refine bindings_form.bind fun p hp => ?_
      dsimp only
      split
      · rename_i b hb
        exact .pure (hp name b hb)
      · exact unboundParam_forms hc mode name _ arg
  | app name args =>
      rw [build]
      exact (buildList_forms hc mode arg name 0 args).bind fun ts hts =>
        .ofExcept (DataTypes.applyName_forms hts)
  | arrow domain codomain =>
      rw [build]
      refine (build_forms hc mode arg .type domain).bind fun a ha => ?_
      refine (build_forms hc mode arg .type codomain).bind fun b hb => ?_
      exact .pure (Ty.formed_fn_iff.2 ⟨ha, hb⟩)
  | nat value => exact .pure (Ty.formed_nat value)
  | tag value => exact .pure (Ty.formed_tag value)

theorem buildList_forms (hc : c.data.Grounded) (mode : Unbound) (arg : Nat) (name : String) (i : Nat)
    (es : List TypeExpr) : Upholds (interpreting c.data) (c.buildList mode arg name i es)
      fun ts => ∀ t ∈ ts, c.data.Forms t := by
  match es with
  | [] => exact .pure (List.forall_mem_nil _)
  | e :: es =>
      rw [buildList]
      refine (build_forms hc mode arg _ e).bind fun t ht => ?_
      refine (buildList_forms hc mode arg name (i + 1) es).bind fun ts hts => ?_
      exact .pure (List.forall_mem_cons.2 ⟨ht, hts⟩)

end

theorem bindParam_forms (name : String) (hint : ParamKind) {actual : Ty}
    (hactual : c.data.Forms actual) (arg : Nat) :
    Upholds (interpreting c.data) (c.bindParam name hint actual arg) fun _ => True := by
  unfold bindParam
  refine bindings_form.bind fun p hp => ?_
  dsimp only
  split
  · exact .ite (fun _ => bindTo_forms _ hactual) fun _ => .throw trivial
  · rename_i earlier hearlier
    refine .ite (fun _ => .pure trivial) fun _ => .ite (fun _ => ?_) fun _ => ?_
    · exact constrain_forms (hp name earlier hearlier) hactual arg
    · exact .ite (fun _ => .throw trivial) fun _ => .throw trivial

theorem require_forms {expected actual : Ty} (hexpected : c.data.Forms expected)
    (hactual : c.data.Forms actual) (arg : Nat) :
    Upholds (interpreting c.data) (c.require expected actual arg) fun _ => True := by
  unfold require
  refine .ite (fun _ => ?_) fun _ => constrain_forms hexpected hactual arg
  exact .ite (fun _ => .pure trivial) fun _ => .throw trivial

theorem mismatch_forms (hc : c.data.Grounded) (pattern : TypeExpr) (hint : ParamKind) (actual : Ty)
    (arg : Nat) :
    Upholds (interpreting c.data) (c.mismatch pattern hint actual arg) fun _ => True :=
  (build_forms hc .fresh arg hint pattern).bind fun _ _ => .throw trivial

mutual

theorem matchType_forms (hc : c.data.Grounded) (arg : Nat) (hint : ParamKind) (pattern : TypeExpr)
    {actual : Ty} (hactual : c.data.Forms actual) :
    Upholds (interpreting c.data) (c.matchType arg hint pattern actual) fun _ => True := by
  unfold matchType
  split
  · refine .ite (fun _ => bindParam_forms _ _ hactual arg) fun _ => ?_
    exact (build_forms hc .fresh arg hint _).bind fun t ht => constrain_forms ht hactual arg
  · exact (build_forms hc .fresh arg hint _).bind fun t ht => constrain_forms ht hactual arg
  · refine .ite (fun _ => bindParam_forms _ _ hactual arg) fun _ => ?_
    refine .bind (.ofExcept (hc.resolveClosed_forms DataTypes.formsScope_nil _)) fun t ht => ?_
    exact require_forms ht hactual arg
  · rename_i name params dataName constructor args
    refine .ite (fun _ => ?_) fun _ => mismatch_forms hc _ hint _ arg
    exact matchTypes_forms hc arg name 0 params (Ty.formed_data_iff.1 hactual).2
  · obtain ⟨ha, hb⟩ := Ty.formed_fn_iff.1 hactual
    exact (matchType_forms hc arg .type _ ha).bind fun _ _ => matchType_forms hc arg .type _ hb
  · exact require_forms (Ty.formed_nat _) hactual arg
  · exact require_forms (Ty.formed_tag _) hactual arg
  · exact .throw trivial
  · exact mismatch_forms hc _ hint _ arg
termination_by sizeOf pattern

theorem matchTypes_forms (hc : c.data.Grounded) (arg : Nat) (name : String) (i : Nat)
    (patterns : List TypeExpr) {actuals : List Ty} (hactuals : ∀ t ∈ actuals, c.data.Forms t) :
    Upholds (interpreting c.data) (c.matchTypes arg name i patterns actuals) fun _ => True := by
  match patterns, actuals with
  | [], _ =>
      rw [matchTypes]
      · exact .pure trivial
      · simp
  | pattern :: patterns, [] =>
      rw [matchTypes]
      · exact .pure trivial
      · simp
  | pattern :: patterns, actual :: actuals =>
      rw [List.forall_mem_cons] at hactuals
      rw [matchTypes]
      exact (matchType_forms hc arg _ pattern hactuals.1).bind fun _ _ =>
        matchTypes_forms hc arg name (i + 1) patterns hactuals.2
termination_by sizeOf patterns

end

theorem matchArgs_forms (hc : c.data.Grounded) (i : Nat) (patterns : List TypeExpr)
    {actuals : List Ty} (hactuals : ∀ t ∈ actuals, c.data.Forms t) :
    Upholds (interpreting c.data) (c.matchArgs i patterns actuals) fun _ => True := by
  fun_induction c.matchArgs i patterns actuals with
  | case1 i pattern patterns actual actuals ih =>
      rw [List.forall_mem_cons] at hactuals
      exact (matchType_forms hc i .type pattern hactuals.1).bind fun _ _ => ih hactuals.2
  | case2 => exact .pure trivial

/-- What a call comes to is formed as declared. -/
def Outcome.Formed (r : DataTypes) (o : Outcome) : Prop :=
  r.Forms o.type ∧ ∀ k ∈ o.constraints, r.Forms k.expected ∧ r.Forms k.actual

theorem interpret_forms (hc : c.data.Grounded) (hargs : ∀ t ∈ c.args, c.data.Forms t) :
    Upholds (aligned Supply) c.interpret (Outcome.Formed c.data) := by
  have hwalk : Upholds (interpreting c.data) c.walk (Outcome.Formed c.data) := by
    refine (matchArgs_forms hc 0 _ hargs).bind fun _ _ => ?_
    refine (build_forms hc .refuse _ .type _).bind fun t ht => ?_
    refine Upholds.bind (p := fun p : Progress =>
      ∀ k ∈ p.constraints, c.data.Forms k.expected ∧ c.data.Forms k.actual) (.get fun p hp => hp.2)
      fun p hp => .pure ⟨ht, hp⟩
  intro s _
  refine ⟨trivial, ?_⟩
  rw [outcome_interpret]
  split
  · trivial
  · have hstart : (interpreting c.data).holds ⟨s, ∅, []⟩ :=
      ⟨fun name b hb => by simp at hb, List.forall_mem_nil _⟩
    exact (hwalk ⟨s, ∅, []⟩ hstart).2

end Call

end Signature

namespace Registry

theorem validate_forms (r : Registry) (structureName operation : String) (args : List Ty) :
    Upholds (aligned Supply) (r.validate structureName operation args) fun _ => True := by
  unfold validate
  split
  · split
    · refine .ite (fun _ => .throw trivial) fun _ => ?_
      refine (liftState_upholds (p := fun _ => True) fun _ => trivial).bind fun accepted _ => ?_
      exact .ite (fun _ => .pure trivial) fun _ => .throw trivial
    · exact .throw trivial
  · exact .throw trivial

end Registry

end Formulary
