import Formulary.Proofs.MirroredCalls
import Formulary.Proofs.Principality

namespace Formulary

/-- What is told of a fault, apart from the types it is about. -/
def Fault.shown (f : Fault) : FaultKind × String × List String := (f.kind, f.message, f.missing)

namespace Ty

variable {allowed : String → String → Prop}

theorem unquantify_rename_of_isOver (f : Int → Int) {t : Ty} (h : t.IsOver allowed) :
    (t.rename f).unquantify = ([], t.rename f) := by
  cases t with
  | poly id body => exact h.elim
  | _ => rfl

theorem unquantify_of_isOver {t : Ty} (h : t.IsOver allowed) : t.unquantify = ([], t) := by
  cases t with
  | poly id body => exact h.elim
  | _ => rfl

/-- A closed scheme over data types that are allowed. -/
structure IsSchemeOver (allowed : String → String → Prop) (t : Ty) : Prop where
  body : t.unquantify.2.IsOver allowed
  closed : t.freeOccurrences = []

theorem IsSchemeOver.mem_unquantify {t : Ty} (h : t.IsSchemeOver allowed) {x : Int}
    (hx : x ∈ t.unquantify.2.freeOccurrences) : x ∈ t.unquantify.1 := by
  by_contra hnot
  have hfree := mem_freeOccurrences_iff_unquantify.2 ⟨hx, hnot⟩
  rw [h.closed] at hfree
  exact List.not_mem_nil hfree

theorem IsSchemeOver.bind_eq {t : Ty} (h : t.IsSchemeOver allowed) (f : Int → Ty) :
    t.bind f = t := by
  refine bind_eq_self fun x hx => ?_
  rw [h.closed] at hx
  exact absurd hx List.not_mem_nil

end Ty

namespace Mirror

variable {M : Mirror}

structure ShowsState (M : Mirror) (s s' : Inference.State) : Prop where
  supply : M.ShowsSupply s.supply s'.supply
  subst : M.ShowsSubst s.subst s'.subst
  free : M.ShowsIds s.free s'.free
  warnings : s'.warnings.map Fault.shown = s.warnings.map Fault.shown

/-- The type of a known name in the second run. A scheme that is closed need not be numbered
anew. -/
def ShowsScheme (M : Mirror) (t t' : Ty) : Prop :=
  M.ShowsTy t t' ∨ t' = t ∧ t.IsSchemeOver M.allowed

/-- An argument with its type in the second run. -/
def ShowsArg (M : Mirror) (a a' : Expr × Ty) : Prop := a'.1 = a.1 ∧ M.ShowsTy a.2 a'.2

/-- Steps of inference, which fail alike where `same` holds. -/
def inferLike (M : Mirror) (same : Prop) : Likeness Inference.State Fault :=
  ⟨M.ShowsState, Fault.IsLike, same⟩

theorem showsArgs_zip (args : List Expr) {ts ts' : List Ty} (h : List.Forall₂ M.ShowsTy ts ts') :
    List.Forall₂ M.ShowsArg (args.zip ts) (args.zip ts') := by
  induction h generalizing args with
  | nil => simp
  | cons ht _ ih =>
      cases args with
      | nil => exact .nil
      | cons arg args => exact .cons ⟨rfl, ht⟩ (ih args)

theorem map_fst_of_showsArgs {args args' : List (Expr × Ty)}
    (h : List.Forall₂ M.ShowsArg args args') : args'.map (·.1) = args.map (·.1) := by
  induction h with
  | nil => rfl
  | cons ha _ ih => rw [List.map_cons, List.map_cons, ih, ha.1]

end Mirror

namespace Ty

variable {M : Mirror}

theorem freshen_same (ids : List Int) {s s' : Subst} {settled : Int → Prop}
    (hs : ∀ x, settled x → s'.image x = (s.image x).rename M.ids) (hover : s.IsOver M.allowed)
    {u u' : Supply} (hu : M.ShowsSupply u u') :
    (∀ x, x ∈ ids ∨ settled x → ((freshen ids s').run u').1.image x =
        (((freshen ids s).run u).1.image x).rename M.ids) ∧
      ((freshen ids s).run u).1.IsOver M.allowed ∧
      M.ShowsSupply ((freshen ids s).run u).2 ((freshen ids s').run u').2 := by
  induction ids generalizing s s' u u' settled with
  | nil => exact ⟨fun x hx => hs x (hx.resolve_left List.not_mem_nil), hover, hu⟩
  | cons id ids ih =>
      have hinsert : ∀ x, x = id ∨ settled x →
          Subst.image (SortedMap.insert s' id (.var (M.ids u.next))) x =
            (Subst.image (SortedMap.insert s id (.var u.next)) x).rename M.ids := by
        intro x hx
        rw [Subst.image, Subst.image, SortedMap.get?_insert, SortedMap.get?_insert]
        by_cases hid : id = x
        · rw [if_pos hid, if_pos hid]
          rfl
        · rw [if_neg hid, if_neg hid]
          exact hs x (hx.resolve_left (Ne.symm hid))
      obtain ⟨himage, hrest⟩ := ih hinsert (hover.insert id (t := .var u.next) trivial) hu.advance
      rw [run_freshen_cons, run_freshen_cons, hu.next]
      refine ⟨fun x hx => himage x ?_, hrest⟩
      rw [List.mem_cons] at hx
      tauto

theorem instantiate_mirrors {t t' : Ty} (ht : M.ShowsScheme t t') :
    Mirrors M.freshLike (liftM t.instantiate : Fresh Ty) (liftM t'.instantiate : Fresh Ty)
      M.ShowsTy := by
  refine .liftState fun u u' hu => ?_
  rw [run_instantiate, run_instantiate]
  rcases ht with ⟨rfl, hover⟩ | ⟨rfl, hclosed⟩
  · rw [unquantify_of_isOver hover, unquantify_rename_of_isOver _ hover]
    exact ⟨⟨rfl, hover⟩, hu⟩
  · split
    · rename_i hempty
      have hbody := hclosed.body
      rw [unquantify_of_isEmpty hempty] at hbody
      have hrename := rename_bind_of_isOver M.ids .var hbody
      rw [hclosed.bind_eq, hclosed.bind_eq] at hrename
      exact ⟨⟨hrename.symm, hbody⟩, hu⟩
    · have hstart : ∀ x, False → Subst.image ∅ x = (Subst.image ∅ x).rename M.ids := fun _ => False.elim
      obtain ⟨himage, hsover, hu'⟩ := freshen_same t'.unquantify.1 hstart Subst.isOver_empty hu
      refine ⟨⟨?_, hsover.apply hclosed.body⟩, hu'⟩
      rw [Subst.apply_eq_bind, Subst.apply_eq_bind, rename_bind_of_isOver _ _ hclosed.body]
      exact bind_congr fun x hx => himage x (.inl (hclosed.mem_unquantify hx))

end Ty

namespace Inference

variable {M : Mirror} {same : Prop}

theorem failAt_mirrors {α β : Type} {A : α → β → Prop} (e e' : Expr) {f f' : Fault}
    (h : f.IsLike f') : Mirrors (M.inferLike same) (failAt e f) (failAt e' f') A :=
  fun _ _ hs _ => ⟨h, hs.supply, hs.subst, hs.free, hs.warnings⟩

theorem blaming_mirrors {α β : Type} {A : α → β → Prop} (e e' : Expr) {m : Infer α} {m' : Infer β}
    (h : Mirrors (M.inferLike same) m m' A) :
    Mirrors (M.inferLike same) (blaming e m) (blaming e' m') A :=
  h.orElseThrow (fun _ _ hlike => failAt_mirrors e e' hlike) fun _ _ => ⟨_, rfl⟩

theorem warn_mirrors {f f' : Fault} (h : f'.shown = f.shown) :
    Mirrors (M.inferLike same) (warn f) (warn f') fun _ _ => True := by
  refine .modify fun s s' hs => ⟨hs.supply, hs.subst, hs.free, ?_⟩
  rw [List.map_append, List.map_append, hs.warnings, List.map_singleton, List.map_singleton, h]

theorem log_mirrors (line line' : String) :
    Mirrors (M.inferLike same) (log line) (log line') fun _ _ => True :=
  .modify fun _ _ hs => ⟨hs.supply, hs.subst, hs.free, hs.warnings⟩

theorem fresh_mirrors {α β : Type} {A : α → β → Prop} {m : Fresh α} {m' : Fresh β}
    (h : Mirrors M.freshLike m m' A) : Mirrors (M.inferLike same) (fresh m) (fresh m') A :=
  h.zoom (fun _ => trivial) (fun _ _ hs => hs.supply)
    (fun _ _ _ _ hs hu => ⟨hu, hs.subst, hs.free, hs.warnings⟩) fun _ _ => id

theorem freshVar_mirrors : Mirrors (M.inferLike same) freshVar freshVar M.ShowsTy := by
  refine (fresh_mirrors Mirror.fresh_mirrors).bind fun x y hxy => .pure ?_
  rw [hxy]
  exact Mirror.showsTy_var x

theorem known_mirrors {t t' : Ty} (h : M.ShowsTy t t') :
    Mirrors (M.inferLike same) (known t) (known t') M.ShowsTy :=
  Mirrors.get.bind fun _ _ hs => .pure (hs.subst.apply h)

theorem mapM_known_mirrors {ts ts' : List Ty} (h : List.Forall₂ M.ShowsTy ts ts') :
    Mirrors (M.inferLike same) (ts.mapM known) (ts'.mapM known) (List.Forall₂ M.ShowsTy) :=
  .mapM h fun _ _ _ ht => known_mirrors ht

theorem refine_mirrors {found found' : Subst} (h : M.ShowsSubst found found') :
    Mirrors (M.inferLike same) (modify (·.refine found)) (modify (·.refine found'))
      fun _ _ => True :=
  .modify fun _ _ hs => ⟨hs.supply, hs.subst.compose h, hs.free, hs.warnings⟩

theorem freeName_mirrors (name : String) :
    Mirrors (M.inferLike same) (freeName name) (freeName name) M.ShowsTy := by
  unfold freeName
  refine Mirrors.get.bind fun s s' hs => ?_
  rw [hs.free.lookup name]
  cases s.free.lookup name with
  | some id => exact .pure (Mirror.showsTy_var id)
  | none =>
      refine (fresh_mirrors Mirror.fresh_mirrors).bind fun x y hxy => ?_
      rw [hxy]
      refine (Mirrors.modify (L := M.inferLike same) fun s s' hs => ?_).bind fun _ _ _ =>
        .pure (Mirror.showsTy_var x)
      refine ⟨hs.supply, hs.subst, ?_, hs.warnings⟩
      rw [Mirror.ShowsIds, hs.free]
      rfl

theorem unify_mirrors {c c' : Context} (htrace : c'.trace = c.trace) {a a' b b' : Ty}
    (ha : M.ShowsTy a a') (hb : M.ShowsTy b b') :
    Mirrors (M.inferLike same) (unify c a b) (unify c' a' b') fun _ _ => True := by
  unfold unify
  refine (known_mirrors ha).bind fun a a' ha => (known_mirrors hb).bind fun b b' hb => ?_
  obtain ⟨s, s', hs, hs', hshows⟩ | ⟨e, e', he, he', hlike⟩ := ha.unify hb
  · rw [htrace, hs, hs']
    refine .ite Iff.rfl (fun _ => ?_) fun _ => refine_mirrors hshows
    exact (log_mirrors _ _).bind fun _ _ _ => refine_mirrors hshows
  · rw [htrace, he, he']
    refine .ite Iff.rfl (fun _ => ?_) fun _ => .throw hlike
    exact (log_mirrors _ _).bind fun _ _ _ => .throw hlike

theorem requireIdempotent_mirrors :
    Mirrors (M.inferLike same) requireIdempotent requireIdempotent fun _ _ => True := by
  unfold requireIdempotent
  refine Mirrors.get.bind fun s s' hs => ?_
  dsimp only
  rw [hs.subst.1.isIdempotent_eq]
  exact .ite Iff.rfl (fun _ => .pure trivial) fun _ => .throw ⟨rfl, rfl⟩

theorem showsTy_literal {kind : ParamKind} {arg : Expr} {t : Ty} (h : literal? kind arg = some t) :
    M.ShowsTy t t := by
  unfold literal? at h
  split at h
  · obtain ⟨n, -, rfl⟩ := Option.map_eq_some_iff.1 h
    exact ⟨rfl, trivial⟩
  · obtain ⟨tag, -, rfl⟩ := Option.map_eq_some_iff.1 h
    exact ⟨rfl, trivial⟩
  · cases h

theorem all_kind_eq {fields fields' : List FieldInstance}
    (h : List.Forall₂ M.ShowsField fields fields') (kind : ParamKind) :
    (fields'.all (·.kind = kind)) = fields.all (·.kind = kind) := by
  induction h with
  | nil => rfl
  | cons hf _ ih => rw [List.all_cons, List.all_cons, ih, hf.kind]

theorem isShaped_eq {v v' : VariantInstance} (h : M.ShowsVariant v v') :
    v'.isShaped = v.isShaped := by
  have hreverse := List.forall₂_reverse_iff.2 h.fields
  rw [VariantInstance.isShaped, VariantInstance.isShaped, h.owner, h.fields.length_eq]
  generalize v.fields.reverse = fields at hreverse ⊢
  generalize v'.fields.reverse = fields' at hreverse ⊢
  cases hreverse with
  | nil => rfl
  | cons hlast hdims =>
      dsimp only
      rw [hlast.kind, all_kind_eq hdims]

theorem areElements_eq {v v' : VariantInstance} (h : M.ShowsVariant v v') (args : List Expr) :
    areElements v' args = areElements v args := by
  rw [areElements, areElements, isShaped_eq h, h.fields.length_eq]

theorem showsTy_element {v v' : VariantInstance} (h : M.ShowsVariant v v')
    (hshaped : v.isShaped = true) :
    M.ShowsTy ((v.fields.getLast?.map (·.type)).getD .blank)
      ((v'.fields.getLast?.map (·.type)).getD .blank) := by
  rw [VariantInstance.isShaped] at hshaped
  rw [← List.head?_reverse, ← List.head?_reverse]
  have hreverse := List.forall₂_reverse_iff.2 h.fields
  generalize v.fields.reverse = fields at hreverse hshaped ⊢
  generalize v'.fields.reverse = fields' at hreverse ⊢
  cases hreverse with
  | nil => simp at hshaped
  | cons hf _ => exact hf.type

theorem isShaped_of_areElements {v : VariantInstance} {args : List Expr}
    (h : areElements v args = true) : v.isShaped = true := by
  simp only [areElements, Bool.and_eq_true] at h
  exact h.1.1

section Binding

variable {c c' : Context} (htrace : c'.trace = c.trace)

include htrace

theorem bindValue_mirrors (kind : ParamKind) {field field' actual actual' : Ty}
    (hfield : M.ShowsTy field field') (ha : M.ShowsTy actual actual') {refusal refusal' : Fault}
    (hrefusal : refusal.IsLike refusal') :
    Mirrors (M.inferLike same) (bindValue c kind field refusal actual)
      (bindValue c' kind field' refusal' actual') fun _ _ => True := by
  have hunify : Mirrors (M.inferLike same) (unify c field actual) (unify c' field' actual') _ :=
    unify_mirrors htrace hfield ha
  obtain ⟨rfl, -⟩ := hfield
  obtain ⟨rfl, -⟩ := ha
  -- a value of the right kind is taken over where the field is not known yet
  cases actual with
  | var id => exact .pure trivial
  | prim p => exact .ite Iff.rfl (fun _ => .pure trivial) fun _ => .throw hrefusal
  | nat n =>
      refine .ite Iff.rfl (fun _ => ?_) fun _ => .throw hrefusal
      cases field with
      | var id => exact hunify
      | _ => exact .pure trivial
  | tag tag =>
      refine .ite Iff.rfl (fun _ => ?_) fun _ => .throw hrefusal
      cases field with
      | var id => exact hunify
      | _ => exact .pure trivial
  | blank | data | fn | poly => exact .throw hrefusal

theorem bindField_mirrors {v v' : VariantInstance} (hv : v'.name = v.name) (index : Nat)
    {field field' : FieldInstance} (hfield : M.ShowsField field field') (arg : Expr) {t t' : Ty}
    (ht : M.ShowsTy t t') :
    Mirrors (M.inferLike same) (bindField c v index field arg t) (bindField c' v' index field' arg t')
      fun _ _ => True := by
  unfold bindField
  dsimp only
  rw [hv, hfield.kind, hfield.label]
  refine .ite Iff.rfl (fun _ => unify_mirrors htrace hfield.type ht) fun _ => ?_
  cases hliteral : literal? field.kind arg with
  | some value =>
      have hunify : Mirrors (M.inferLike same) (unify c field.type value)
          (unify c' field'.type value) _ :=
        unify_mirrors htrace hfield.type (showsTy_literal hliteral)
      have htype := hfield.type.1
      generalize field.type = u at htype hunify ⊢
      rw [htype] at hunify ⊢
      cases u with
      | var id => exact hunify
      | _ => exact .pure trivial
  | none =>
      cases arg with
      | const value => exact .throw ⟨rfl, rfl⟩
      | _ =>
          exact (known_mirrors ht).bind fun t t' ht =>
            bindValue_mirrors htrace _ hfield.type ht ⟨rfl, rfl⟩

theorem bindFields_mirrors {v v' : VariantInstance} (hv : v'.name = v.name) (index : Nat)
    {fields fields' : List FieldInstance} (hfields : List.Forall₂ M.ShowsField fields fields')
    {args args' : List (Expr × Ty)} (hargs : List.Forall₂ M.ShowsArg args args') :
    Mirrors (M.inferLike same) (bindFields c v index fields args)
      (bindFields c' v' index fields' args') fun _ _ => True := by
  induction hfields generalizing index args args' with
  | nil => exact .pure trivial
  | cons hfield _ ih =>
      cases hargs with
      | nil => exact .pure trivial
      | @cons a a' _ _ ha hargs =>
          rcases a with ⟨arg, t⟩
          rcases a' with ⟨arg', t'⟩
          obtain ⟨rfl, ht⟩ := ha
          exact (bindField_mirrors htrace hv index hfield _ ht).bind fun _ _ _ =>
            ih (index + 1) hargs

theorem bindElements_mirrors {element element' : Ty} (he : M.ShowsTy element element')
    {args args' : List (Expr × Ty)} (hargs : List.Forall₂ M.ShowsArg args args') :
    Mirrors (M.inferLike same) (bindElements c element args) (bindElements c' element' args')
      fun _ _ => True := by
  induction hargs with
  | nil => exact .pure trivial
  | @cons a a' _ _ ha _ ih =>
      rcases a with ⟨arg, t⟩
      rcases a' with ⟨arg', t'⟩
      obtain ⟨rfl, ht⟩ := ha
      exact (blaming_mirrors _ _ (unify_mirrors htrace he ht)).bind fun _ _ _ => ih

theorem inferConstruction_mirrors (hagree : c.data.Agrees M c'.data) {name : String}
    (hname : c'.data.variant? name = c.data.variant? name) (e : Expr)
    {args args' : List (Expr × Ty)} (hargs : List.Forall₂ M.ShowsArg args args') :
    Mirrors (M.inferLike same) (inferConstruction c e name args) (inferConstruction c' e name args')
      M.ShowsTy := by
  unfold inferConstruction
  refine (blaming_mirrors e e (fresh_mirrors (DataTypes.instantiate_mirrors hagree hname))).bind
    fun v v' hv => ?_
  have hresult : Mirrors (M.inferLike same) (known v.result) (known v'.result) _ :=
    known_mirrors hv.result
  rw [← hargs.length_eq, Mirror.map_fst_of_showsArgs hargs, areElements_eq hv,
    ← hv.fields.length_eq]
  refine .ite Iff.rfl (fun _ => ?_) fun _ => .ite Iff.rfl (fun helements => ?_) fun _ => ?_
  · exact (blaming_mirrors e e (bindFields_mirrors htrace hv.name 0 hv.fields hargs)).bind
      fun _ _ _ => hresult
  · refine (blaming_mirrors e e (bindFields_mirrors htrace hv.name 0
      (List.forall₂_take _ hv.fields) (List.forall₂_take _ hargs))).bind fun _ _ _ => ?_
    exact (bindElements_mirrors htrace
      (showsTy_element hv (isShaped_of_areElements helements))
      (List.forall₂_drop _ hargs)).bind fun _ _ _ => hresult
  · exact (failAt_mirrors (A := fun _ _ => True) e e (.refl _)).bind fun _ _ _ => hresult

end Binding

theorem asDimensions_eq (requirer : Requirer) (f : Fault) :
    (f.isClash = true ∧ ∃ expected actual values,
      asDimensions requirer f = .inconsistentDims requirer expected actual values) ∨
    f.isClash = false ∧ asDimensions requirer f = f := by
  unfold asDimensions
  split
  · split
    · rename_i hvalues
      exact .inl ⟨hvalues, _, _, _, rfl⟩
    · rename_i hvalues
      exact .inr ⟨Bool.eq_false_iff.2 hvalues, rfl⟩
  · rename_i hother
    refine .inr ⟨?_, rfl⟩
    unfold Fault.isClash
    split
    · exact absurd rfl (hother _ _)
    · rfl

theorem asDimensions_isLike (requirer : Requirer) {f f' : Fault} (h : f.IsLike f') :
    (asDimensions requirer f).IsLike (asDimensions requirer f') := by
  obtain ⟨hclash, _, _, _, hdims⟩ | ⟨hclash, heq⟩ := asDimensions_eq requirer f <;>
    obtain ⟨hclash', _, _, _, hdims'⟩ | ⟨hclash', heq'⟩ := asDimensions_eq requirer f'
  · rw [hdims, hdims']
    exact ⟨rfl, rfl⟩
  · simp [h.isClash, hclash] at hclash'
  · simp [h.isClash, hclash] at hclash'
  · rw [heq, heq']
    exact h

theorem arity?_rename (f : Int → Int) (t : Ty) : arity? (t.rename f) = arity? t := by
  cases t with
  | var id => rfl
  | _ => exact congrArg some (Ty.length_uncurry_rename f _)

/-- What a call depends on in two runs. -/
structure Context.Agrees (M : Mirror) (c c' : Context) : Prop where
  registry : c.registry.Agrees M c'.registry
  strict : c'.strict = c.strict
  lenient : c'.lenient = c.lenient
  trace : c'.trace = c.trace
  implemented : c'.implemented = c.implemented

/-- Steps of inference under two lists of declarations. They fail alike if nothing has been added. -/
abbrev likeness (M : Mirror) (c c' : Context) : Likeness State Fault :=
  M.inferLike (c'.registry = c.registry)

/-- A name with the same meaning in two runs. -/
structure SameName (M : Mirror) (c c' : Context) (env env' : TypeEnv) (name : String) : Prop where
  type : Option.Rel M.ShowsScheme (env.get? name) (env'.get? name)
  variant : c'.data.variant? name = c.data.variant? name
  operation : c'.registry.operation? name = c.registry.operation? name

section Calls

variable {c c' : Context} (hagree : c.Agrees M c')

include hagree

theorem unifyFor_mirrors (requirer : Requirer) (e : Expr) {a a' b b' : Ty} (ha : M.ShowsTy a a')
    (hb : M.ShowsTy b b') :
    Mirrors (M.inferLike same) (unifyFor c requirer e a b) (unifyFor c' requirer e a' b')
      fun _ _ => True :=
  (unify_mirrors hagree.trace ha hb).orElseThrow
    (fun _ _ hlike => failAt_mirrors e e (asDimensions_isLike requirer hlike)) fun _ _ => ⟨_, rfl⟩

theorem inferApplication_mirrors (e : Expr) (name : String) {t t' : Ty} (ht : M.ShowsScheme t t')
    {args args' : List Ty} (hargs : List.Forall₂ M.ShowsTy args args') :
    Mirrors (M.inferLike same) (inferApplication c e name t args)
      (inferApplication c' e name t' args') M.ShowsTy := by
  unfold inferApplication
  refine (fresh_mirrors (Ty.instantiate_mirrors ht)).bind fun fn fn' hfn => ?_
  refine (known_mirrors hfn).bind fun u u' hu => ?_
  have hcall : Mirrors (M.inferLike same)
      (do
        let result ← freshVar
        unifyFor c (.function name) e fn (Ty.curry args result)
        known result)
      (do
        let result ← freshVar
        unifyFor c' (.function name) e fn' (Ty.curry args' result)
        known result) M.ShowsTy :=
    freshVar_mirrors.bind fun result result' hresult =>
      (unifyFor_mirrors hagree _ e hfn (.curry hargs hresult)).bind fun _ _ _ =>
        known_mirrors hresult
  rw [hu.1, arity?_rename, ← hargs.length_eq]
  cases arity? u with
  | none => exact hcall
  | some n =>
      refine .ite Iff.rfl (fun _ => ?_) fun _ => hcall
      exact (failAt_mirrors (A := fun _ _ => True) e e (.refl _)).bind fun _ _ _ => hcall

theorem meetConstraints_mirrors (requirer : Requirer) (e : Expr)
    {ks ks' : List Signature.Constraint} (hks : List.Forall₂ M.ShowsConstraint ks ks') :
    Mirrors (M.inferLike same) (meetConstraints c requirer e ks) (meetConstraints c' requirer e ks')
      fun _ _ => True := by
  induction hks with
  | nil => exact .pure trivial
  | cons hk _ ih =>
      exact (unifyFor_mirrors hagree requirer e hk.expected hk.actual).bind fun _ _ _ => ih

theorem validate_mirrors (structureName operation : String) {args args' : List Ty}
    (hargs : List.Forall₂ M.ShowsTy args args') :
    Mirrors (likeness M c c') (fresh (c.registry.validate structureName operation args))
      (fresh (c'.registry.validate structureName operation args')) fun _ _ => True :=
  (Registry.validate_mirrors hagree.registry structureName operation hargs).zoom id
    (fun _ _ hs => hs.supply) (fun _ _ _ _ hs hu => ⟨hu, hs.subst, hs.free, hs.warnings⟩)
    fun _ _ => id

theorem inferOperation_mirrors (e : Expr) {name : String} {s : Structure} {op : Operation}
    (hop : c.registry.operation? name = some (s, op)) {args args' : List Ty}
    (hargs : List.Forall₂ M.ShowsTy args args') :
    Mirrors (likeness M c c') (inferOperation c e s op args) (inferOperation c' e s op args')
      M.ShowsTy := by
  unfold inferOperation
  refine (mapM_known_mirrors hargs).bind fun before before' hbefore => ?_
  obtain ⟨hkinds, hsignature⟩ := hagree.registry.operations _ _ _ hop
  have hcall : M.ShowsCall ⟨c.registry, s, op, before, c.lenient⟩
      ⟨c'.registry, s, op, before', c'.lenient⟩ :=
    ⟨hagree.registry.data, rfl, rfl, hbefore, hagree.lenient, hkinds, hsignature⟩
  refine (blaming_mirrors e e (fresh_mirrors (Signature.Call.interpret_mirrors hcall))).bind
    fun o o' ho => ?_
  refine (meetConstraints_mirrors hagree _ e ho.constraints).bind fun _ _ _ => ?_
  rw [hagree.implemented]
  refine .ite Iff.rfl (fun _ => ?_) fun _ => known_mirrors ho.type
  refine (mapM_known_mirrors hargs).bind fun after after' hafter => ?_
  exact (blaming_mirrors e e (validate_mirrors hagree s.name op.name hafter)).bind fun _ _ _ =>
    known_mirrors ho.type

variable {env env' : TypeEnv} {name : String}

theorem inferName_mirrors (hname : SameName M c c' env env' name) :
    Mirrors (likeness M c c') (inferName c env name) (inferName c' env' name) M.ShowsTy := by
  have htype := hname.type
  rw [inferName, inferName, hname.variant, hname.operation]
  generalize env.get? name = t at htype ⊢
  generalize env'.get? name = t' at htype ⊢
  cases htype with
  | some ht => exact fresh_mirrors (Ty.instantiate_mirrors ht)
  | none =>
      have hvariant : Mirrors (likeness M c c') (inferConstruction c (.object name) name [])
          (inferConstruction c' (.object name) name []) _ :=
        inferConstruction_mirrors hagree.trace hagree.registry.data hname.variant _ .nil
      cases hop : c.registry.operation? name with
      | none =>
          rcases c.data.variant? name with _ | ⟨d, ⟨_, _ | ⟨f, fs⟩⟩⟩
          · exact freeName_mirrors name
          · exact hvariant
          · exact freeName_mirrors name
      | some found =>
          have hnullary : Mirrors (likeness M c c')
              (if found.2.signature.splitArrow.1.isEmpty then
                inferOperation c (.object name) found.1 found.2 []
              else freeName name)
              (if found.2.signature.splitArrow.1.isEmpty then
                inferOperation c' (.object name) found.1 found.2 []
              else freeName name) M.ShowsTy :=
            .ite Iff.rfl (fun _ => inferOperation_mirrors hagree _ hop .nil) fun _ =>
              freeName_mirrors name
          rcases c.data.variant? name with _ | ⟨d, ⟨_, _ | ⟨f, fs⟩⟩⟩
          · exact hnullary
          · exact hvariant
          · exact hnullary

theorem inferCall_mirrors (hname : SameName M c c' env env' name) (args : List Expr)
    {ts ts' : List Ty} (hts : List.Forall₂ M.ShowsTy ts ts') :
    Mirrors (likeness M c c') (inferCall c env name args ts) (inferCall c' env' name args ts')
      M.ShowsTy := by
  have htype := hname.type
  unfold inferCall
  dsimp only
  rw [hname.variant, hname.operation]
  refine .ite Iff.rfl (fun _ => ?_) fun _ => ?_
  · exact inferConstruction_mirrors hagree.trace hagree.registry.data hname.variant _
      (Mirror.showsArgs_zip args hts)
  · generalize env.get? name = t at htype ⊢
    generalize env'.get? name = t' at htype ⊢
    cases htype with
    | some ht =>
        exact inferApplication_mirrors hagree _ name ht hts
    | none =>
        cases hop : c.registry.operation? name with
        | some found => exact inferOperation_mirrors hagree _ hop hts
        | none => exact failAt_mirrors _ _ ⟨rfl, rfl⟩

end Calls

theorem shown_nonExhaustive {t t' : Ty} (ht : M.ShowsTy t t') (missing : List String) :
    (Fault.nonExhaustive t' missing).shown = (Fault.nonExhaustive t missing).shown := by
  have htext : (Fault.nonExhaustive t' missing).text = (Fault.nonExhaustive t missing).text := by
    have hrender : t'.render = t.render := by rw [ht.1, Ty.render_rename]
    exact congrArg (fun text => "Non-exhaustive match on " ++ text ++ ": missing " ++
      ", ".intercalate missing) hrender
  have hmessage : (Fault.nonExhaustive t' missing).message = (Fault.nonExhaustive t missing).message :=
    htext
  exact congrArg (fun text => (FaultKind.nonExhaustiveMatch, text, missing)) hmessage

theorem reviewCases_mirrors {c c' : Context} (hagree : c.Agrees M c') (e : Expr) {t t' : Ty}
    (ht : M.ShowsTy t t') (ps : List Pattern) :
    Mirrors (M.inferLike same) (reviewCases c e t ps) (reviewCases c' e t' ps) fun _ _ => True := by
  unfold reviewCases
  have hmissing : Mirrors M.freshLike (liftM (Pattern.missing c.data ps t) : Fresh (List String))
      (liftM (Pattern.missing c'.data ps t') : Fresh (List String)) Eq :=
    .liftState (Pattern.missing_inStep hagree.registry.data ps ht)
  refine (fresh_mirrors hmissing).bind fun missing missing' hsame => ?_
  cases hsame
  have hunreachable : Mirrors (M.inferLike same)
      ((Pattern.unreachable ps).forM fun i => warn (.unreachable (ps[i]?.getD .wildcard) i))
      ((Pattern.unreachable ps).forM fun i => warn (.unreachable (ps[i]?.getD .wildcard) i))
      fun _ _ => True := .forM fun _ _ => warn_mirrors rfl
  refine .ite Iff.rfl (fun _ => hunreachable) fun _ => ?_
  rw [hagree.strict]
  refine .ite Iff.rfl (fun _ => ?_) fun _ => ?_
  · have hlike : (Fault.nonExhaustive t missing).IsLike (.nonExhaustive t' missing) := ⟨rfl, rfl⟩
    exact (failAt_mirrors (A := fun _ _ => True) e e hlike).bind fun _ _ _ => hunreachable
  · exact (warn_mirrors (shown_nonExhaustive ht missing)).bind fun _ _ _ => hunreachable

theorem bindPattern_mirrors {c c' : Context} (hagree : c.Agrees M c') (e : Expr) {p : Pattern}
    (hp : ∀ name ∈ p.heads, c'.data.variant? name = c.data.variant? name) {t t' : Ty}
    (ht : M.ShowsTy t t') :
    Mirrors (M.inferLike same) (bindPattern c e p t) (bindPattern c' e p t') M.ShowsBindings := by
  unfold bindPattern
  refine (known_mirrors ht).bind fun t t' ht => ?_
  refine (blaming_mirrors e e (fresh_mirrors (Pattern.check_mirrors hagree.registry.data hp ht))).bind
    fun typing typing' h => ?_
  exact (refine_mirrors h.subst).bind fun _ _ _ => .pure h.bindings

end Inference

namespace Expr

mutual

/-- The names of an expression: of objects, of what is applied, and of the constructors in
patterns. -/
def names : Expr → List String
  | .blank | .const _ => []
  | .object name => [name]
  | .operation name args => name :: namesList args
  | .matching scrutinee cases => scrutinee.names ++ namesCases cases

def namesList : List Expr → List String
  | [] => []
  | e :: es => e.names ++ namesList es

def namesCases : List (Pattern × Expr) → List String
  | [] => []
  | (p, body) :: rest => p.heads ++ body.names ++ namesCases rest

end

end Expr

namespace Inference

variable {M : Mirror} {c c' : Context}

theorem SameName.extend {env env' bindings bindings' : TypeEnv} {name : String}
    (h : SameName M c c' env env' name) (hb : M.ShowsBindings bindings bindings') :
    SameName M c c' (env.extend bindings.entries) (env'.extend bindings'.entries) name := by
  refine ⟨?_, h.variant, h.operation⟩
  rw [TypeEnv.get?_extend, TypeEnv.get?_extend]
  have hname := hb name
  generalize bindings.get? name = t at hname ⊢
  generalize bindings'.get? name = t' at hname ⊢
  cases hname with
  | none => exact h.type
  | some ht => exact .some (.inl ht)

mutual

theorem infer_mirrors (hagree : c.Agrees M c') {env env' : TypeEnv} {e : Expr}
    (hnames : ∀ name ∈ e.names, SameName M c c' env env' name) :
    Mirrors (likeness M c c') (infer c env e) (infer c' env' e) M.ShowsTy := by
  cases e with
  | blank => exact .throw (.refl _)
  | const value => exact .pure ⟨rfl, hagree.registry.data.scalar, trivial⟩
  | object name =>
      rw [infer, infer]
      exact inferName_mirrors hagree (hnames name (List.mem_singleton_self name))
  | operation name args =>
      rw [infer, infer]
      obtain ⟨hname, hargs⟩ := List.forall_mem_cons.1 hnames
      exact (inferList_mirrors hagree hargs).bind fun ts ts' hts =>
        inferCall_mirrors hagree hname args hts
  | matching scrutinee cases =>
      rw [infer, infer]
      obtain ⟨hscrutinee, hcases⟩ := List.forall_mem_append.1 hnames
      have hmatch (hsome : cases ≠ []) : Mirrors (likeness M c c')
          (do
            let t ← infer c env scrutinee
            let result ← inferCases c env (.matching scrutinee cases) t none cases
            reviewCases c (.matching scrutinee cases) (← known t) (cases.map (·.1))
            known (result.getD .blank))
          (do
            let t ← infer c' env' scrutinee
            let result ← inferCases c' env' (.matching scrutinee cases) t none cases
            reviewCases c' (.matching scrutinee cases) (← known t) (cases.map (·.1))
            known (result.getD .blank)) M.ShowsTy := by
        refine (infer_mirrors hagree hscrutinee).bind fun t t' ht => ?_
        refine (inferCases_mirrors hagree _ ht .none (.inr hsome) hcases).bind
          fun result result' hresult => ?_
        obtain ⟨u, u', rfl, rfl, hu⟩ := hresult
        refine (known_mirrors ht).bind fun w w' hw => ?_
        exact (reviewCases_mirrors hagree _ hw _).bind fun _ _ _ => known_mirrors hu
      refine .ite Iff.rfl (fun _ => ?_) fun hsome => hmatch (mt List.isEmpty_iff.2 hsome)
      exact (failAt_mirrors (A := fun _ _ => False) _ _ (.refl _)).bind fun _ _ h => h.elim

theorem inferList_mirrors (hagree : c.Agrees M c') {env env' : TypeEnv} {es : List Expr}
    (hnames : ∀ name ∈ Expr.namesList es, SameName M c c' env env' name) :
    Mirrors (likeness M c c') (inferList c env es) (inferList c' env' es)
      (List.Forall₂ M.ShowsTy) := by
  cases es with
  | nil => exact .pure .nil
  | cons e es =>
      rw [inferList, inferList]
      obtain ⟨hfirst, hrest⟩ := List.forall_mem_append.1 hnames
      refine (infer_mirrors hagree hfirst).bind fun t t' ht => ?_
      exact (inferList_mirrors hagree hrest).bind fun ts ts' hts => .pure (.cons ht hts)

theorem inferCases_mirrors (hagree : c.Agrees M c') {env env' : TypeEnv} (e : Expr) {t t' : Ty}
    (ht : M.ShowsTy t t') {result result' : Option Ty} (hresult : Option.Rel M.ShowsTy result result')
    {cases : List (Pattern × Expr)} (hsome : result ≠ none ∨ cases ≠ [])
    (hnames : ∀ name ∈ Expr.namesCases cases, SameName M c c' env env' name) :
    Mirrors (likeness M c c') (inferCases c env e t result cases)
      (inferCases c' env' e t' result' cases)
      fun r r' => ∃ u u', r = some u ∧ r' = some u' ∧ M.ShowsTy u u' := by
  match cases with
  | [] =>
      cases hresult with
      | none => simp at hsome
      | some hresult => exact .pure ⟨_, _, rfl, rfl, hresult⟩
  | (p, body) :: rest =>
      rw [inferCases, inferCases]
      rw [Expr.namesCases, List.forall_mem_append, List.forall_mem_append] at hnames
      obtain ⟨⟨hheads, hbody⟩, hrest⟩ := hnames
      refine (bindPattern_mirrors hagree e (fun name hname => (hheads name hname).variant) ht).bind
        fun bindings bindings' hbindings => ?_
      refine (infer_mirrors hagree fun name hname => (hbody name hname).extend hbindings).bind
        fun u u' hu => ?_
      cases hresult with
      | none => exact inferCases_mirrors hagree e ht (.some hu) (.inl (Option.some_ne_none _)) hrest
      | some hresult =>
          exact (blaming_mirrors body body (unify_mirrors hagree.trace hresult hu)).bind
            fun _ _ _ => inferCases_mirrors hagree e ht (.some hresult)
              (.inl (Option.some_ne_none _)) hrest

end

theorem inferExpr_agrees (hagree : c.Agrees M c') {env env' : TypeEnv} {e : Expr}
    (he : e ≠ .blank) (hnames : ∀ name ∈ e.names, SameName M c c' env env' name) {s s' : State}
    (hs : M.ShowsSupply s.supply s'.supply) :
    (likeness M c c').Agrees M.ShowsTy ((inferExpr c env e).outcome s)
      ((inferExpr c' env' e).outcome s') := by
  have hreset : M.ShowsState s.reset s'.reset := ⟨hs.resetCount, Mirror.showsSubst_empty, rfl, rfl⟩
  have hsteps : Mirrors (likeness M c c')
      (do
        let t ← infer c env e
        blaming e requireIdempotent
        let t ← known t
        if c.trace then
          log ("infer " ++ e.render ++ " : " ++ t.render ++ " (" ++
            toString (← get).supply.count ++ " type-variables)")
        return t)
      (do
        let t ← infer c' env' e
        blaming e requireIdempotent
        let t ← known t
        if c'.trace then
          log ("infer " ++ e.render ++ " : " ++ t.render ++ " (" ++
            toString (← get).supply.count ++ " type-variables)")
        return t) M.ShowsTy := by
    refine (infer_mirrors hagree hnames).bind fun t t' ht => ?_
    refine (blaming_mirrors e e requireIdempotent_mirrors).bind fun _ _ _ => ?_
    refine (known_mirrors ht).bind fun t t' ht => ?_
    rw [hagree.trace]
    refine .ite Iff.rfl (fun _ => ?_) fun _ => .pure ht
    exact Mirrors.get.bind fun _ _ _ => (log_mirrors _ _).bind fun _ _ _ => .pure ht
  cases e with
  | blank => exact absurd rfl he
  | _ => exact hsteps _ _ hreset

end Inference

end Formulary
