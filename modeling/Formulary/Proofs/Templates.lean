import Formulary.Proofs.Distinguishing
import Formulary.Proofs.Registering

/-!
Implementations and the types that they are for. An implementation is told apart from the others of its
structure by how the types of its arguments are printed when it is taken in. As long as names that
different types are printed with are not mixed up, and no data type takes a name that an implementation
has written before, a structure has one implementation for each list of types, up to the names of its
parameters.
-/

namespace Formulary

namespace DataTypes

/-- What some name stands for, with a number of arguments. -/
def Stands (r : DataTypes) (node : Ty.Node) (n : Nat) : Prop :=
  (n = 0 ∧ ∃ name, r.lookupName? name = some (node.fill [])) ∨
    ∃ name args, args.length = n ∧ r.applyName name args = .ok (node.fill args)

/-- Names are names of the language, and the scalar type and the numbers are printed by names that
stand for nothing else. -/
structure Legible (r : DataTypes) : Prop where
  types : ∀ d ∈ r.types, Text.isNameText d.name = true
  variants : ∀ d ∈ r.types, d.name = Ty.metaName → ∀ v ∈ d.variants, Text.isNameText v.name = true
  nat : r.lookupName? "Nat" = some (.prim .nat)
  scalar : ∀ t, r.lookupName? "Scalar" = some t → t = .scalar

variable {r : DataTypes} {name : String} {node node' : Ty.Node} {args : List Ty} {t : Ty}

theorem lookupName?_cases (h : r.lookupName? name = some t) :
    (t = .instanceOf name [] ∧ ∃ d, r.find? name = some d) ∨
      (t = .variant name [] ∧ ∃ v, r.metaVariant? name = some v) ∨ (name, t) ∈ builtinNames := by
  unfold lookupName? at h
  split at h
  · rename_i hfind
    cases h
    exact .inl ⟨rfl, _, hfind⟩
  · split at h
    · rename_i hmeta
      cases h
      exact .inr (.inl ⟨rfl, _, hmeta⟩)
    · obtain ⟨before, after, hnames, -⟩ := List.lookup_eq_some_iff.1 h
      exact .inr (.inr (by simp [hnames]))

theorem applyName_cases (h : r.applyName name args = .ok t) :
    (t = .instanceOf name args ∧ ∃ d, r.find? name = some d ∧ d.params.length = args.length) ∨
      (t = .variant name args ∧ r.find? name = none ∧
        ∃ v, r.metaVariant? name = some v ∧ v.fields.length = args.length) := by
  unfold applyName at h
  split at h
  · rename_i d hfind
    split at h
    · rename_i hlength
      cases h
      exact .inl ⟨rfl, d, hfind, hlength⟩
    · cases h
  · rename_i hfind
    split at h
    · rename_i v hmeta
      split at h
      · rename_i hlength
        cases h
        exact .inr ⟨rfl, hfind, v, hmeta, hlength⟩
      · cases h
    · cases h

theorem lookupName?_of_applyName (h : r.applyName name [] = .ok t) : r.lookupName? name = some t := by
  unfold lookupName?
  obtain ⟨rfl, ⟨_, params, _⟩, hfind, hlength⟩ | ⟨rfl, hfind, ⟨_, fields⟩, hmeta, hlength⟩ :=
    applyName_cases h
  · obtain rfl := List.eq_nil_of_length_eq_zero hlength
    rw [hfind]
  · obtain rfl := List.eq_nil_of_length_eq_zero hlength
    rw [hfind, hmeta]

theorem text_of_fill_instanceOf (h : node.fill args = .instanceOf name args) : node.text = name := by
  cases node with
  | prim => cases h
  | data dataName constructor =>
      obtain ⟨rfl, rfl, -⟩ := Ty.data.inj h
      exact ite_self _

theorem text_of_fill_variant (h : node.fill args = .variant name args) : node.text = name := by
  cases node with
  | prim => cases h
  | data dataName constructor =>
      obtain ⟨rfl, rfl, -⟩ := Ty.data.inj h
      rfl

theorem fill_inj (h : node.fill args = node'.fill args) : node = node' := by
  cases node with
  | prim => cases node' <;> cases h; rfl
  | data => cases node' <;> cases h; rfl

theorem text_of_applyName (h : r.applyName name args = .ok (node.fill args)) : node.text = name := by
  rcases applyName_cases h with ⟨heq, -⟩ | ⟨heq, -⟩
  · exact text_of_fill_instanceOf heq
  · exact text_of_fill_variant heq

theorem Stands.lookupName? (h : r.Stands node 0) : ∃ name, r.lookupName? name = some (node.fill []) := by
  rcases h with ⟨-, hname⟩ | ⟨name, args, hlength, happly⟩
  · exact hname
  · obtain rfl := List.eq_nil_of_length_eq_zero hlength
    exact ⟨name, lookupName?_of_applyName happly⟩

theorem node_of_builtin (h : (name, node.fill []) ∈ builtinNames) :
    node = .data Ty.metaName "Scalar" ∨
      ∃ kind, node = .prim kind ∧ (kind = .nat ∨ name = kind.name) := by
  have hscalar (heq : node.fill [] = (Ty.Node.data Ty.metaName "Scalar").fill []) :
      node = .data Ty.metaName "Scalar" := fill_inj heq
  have hprim (kind : PrimKind) (heq : node.fill [] = (Ty.Node.prim kind).fill []) :
      node = .prim kind := fill_inj heq
  simp only [builtinNames, List.mem_cons, Prod.mk.injEq, List.not_mem_nil, or_false] at h
  rcases h with ⟨-, heq⟩ | ⟨-, heq⟩ | ⟨-, heq⟩ | ⟨-, heq⟩ | ⟨rfl, heq⟩ | ⟨rfl, heq⟩
  · exact .inl (hscalar heq)
  · exact .inl (hscalar heq)
  · exact .inr ⟨.nat, hprim _ heq, .inl rfl⟩
  · exact .inr ⟨.nat, hprim _ heq, .inl rfl⟩
  · exact .inr ⟨.string, hprim _ heq, .inr rfl⟩
  · exact .inr ⟨.bool, hprim _ heq, .inr rfl⟩

theorem Legible.lookupName?_text (hr : r.Legible) (h : r.Stands node 0) :
    (r.lookupName? node.text).getD .scalar = node.fill [] := by
  obtain ⟨name, hname⟩ := h.lookupName?
  rcases lookupName?_cases hname with ⟨heq, -⟩ | ⟨heq, -⟩ | hbuiltin
  · rw [text_of_fill_instanceOf heq, hname]
    rfl
  · rw [text_of_fill_variant heq, hname]
    rfl
  · obtain rfl | ⟨kind, rfl, rfl | rfl⟩ := node_of_builtin hbuiltin
    · change (r.lookupName? "Scalar").getD .scalar = .scalar
      cases hfound : r.lookupName? "Scalar" with
      | none => rfl
      | some t => exact hr.scalar t hfound
    · exact congrArg (·.getD .scalar) hr.nat
    · exact congrArg (·.getD .scalar) hname

theorem Legible.isNameText_of_find? (hr : r.Legible) {d : DataType} (h : r.find? name = some d) :
    Text.isNameText name = true := by
  have hname : d.name = name := by simpa using List.find?_some h
  exact hname ▸ hr.types d (List.mem_of_find?_eq_some h)

theorem Legible.isNameText_of_metaVariant? (hr : r.Legible) {v : Variant}
    (h : r.metaVariant? name = some v) : Text.isNameText name = true := by
  unfold metaVariant? at h
  split at h
  · rename_i d v' hvariant
    split at h
    · rename_i hmeta
      obtain ⟨hd, hv, rfl⟩ := mem_of_variant? hvariant
      exact hr.variants d hd hmeta v' hv
    · cases h
  · cases h

theorem Legible.telling (hr : r.Legible) : Ty.Telling r.Stands where
  isNameText := by
    rintro node n (⟨-, name, hname⟩ | ⟨name, args, -, happly⟩)
    · rcases lookupName?_cases hname with ⟨heq, d, hd⟩ | ⟨heq, v, hv⟩ | hbuiltin
      · exact text_of_fill_instanceOf heq ▸ hr.isNameText_of_find? hd
      · exact text_of_fill_variant heq ▸ hr.isNameText_of_metaVariant? hv
      · obtain rfl | ⟨kind, rfl, -⟩ := node_of_builtin hbuiltin
        · decide
        · cases kind <;> decide
    · rcases applyName_cases happly with ⟨heq, d, hd, -⟩ | ⟨heq, -, v, hv, -⟩
      · exact text_of_fill_instanceOf heq ▸ hr.isNameText_of_find? hd
      · exact text_of_fill_variant heq ▸ hr.isNameText_of_metaVariant? hv
  unique := by
    intro node node' n h h' htext
    cases n with
    | zero =>
        have hnode := hr.lookupName?_text h
        rw [htext, hr.lookupName?_text h'] at hnode
        exact fill_inj hnode.symm
    | succ n =>
        obtain ⟨hzero, -⟩ | ⟨name, args, hlength, happly⟩ := h
        · cases hzero
        obtain ⟨hzero, -⟩ | ⟨name', args', hlength', happly'⟩ := h'
        · cases hzero
        obtain rfl : name = name' :=
          (text_of_applyName happly).symm.trans (htext.trans (text_of_applyName happly'))
        obtain ⟨heq, d, hd, -⟩ | ⟨heq, hnone, -⟩ := applyName_cases happly
        · obtain ⟨heq', -⟩ | ⟨-, hnone, -⟩ := applyName_cases happly'
          · have hnode : node = .data name name := fill_inj heq
            exact hnode.trans (fill_inj heq').symm
          · cases hd.symm.trans hnone
        · obtain ⟨-, d, hd, -⟩ | ⟨heq', -⟩ := applyName_cases happly'
          · cases hd.symm.trans hnone
          · have hnode : node = .data Ty.metaName name := fill_inj heq
            exact hnode.trans (fill_inj heq').symm

theorem spelled_of_lookupName? (h : r.lookupName? name = some t) {V : Int → Prop} :
    t.Spelled r.Stands V := by
  have hstands (node : Ty.Node) (h : r.lookupName? name = some (node.fill [])) : r.Stands node 0 :=
    .inl ⟨rfl, name, h⟩
  rcases lookupName?_cases h with ⟨rfl, -⟩ | ⟨rfl, -⟩ | hbuiltin
  · exact ⟨hstands (.data name name) h, trivial⟩
  · exact ⟨hstands (.data Ty.metaName name) h, trivial⟩
  · simp only [builtinNames, List.mem_cons, Prod.mk.injEq, List.not_mem_nil, or_false] at hbuiltin
    rcases hbuiltin with ⟨-, rfl⟩ | ⟨-, rfl⟩ | ⟨-, rfl⟩ | ⟨-, rfl⟩ | ⟨-, rfl⟩ | ⟨-, rfl⟩
    · exact ⟨hstands (.data Ty.metaName "Scalar") h, trivial⟩
    · exact ⟨hstands (.data Ty.metaName "Scalar") h, trivial⟩
    all_goals exact hstands (.prim _) h

theorem spelled_of_applyName {V : Int → Prop} (h : r.applyName name args = .ok t)
    (hargs : Ty.SpelledList r.Stands V args) : t.Spelled r.Stands V := by
  rcases applyName_cases h with ⟨rfl, -⟩ | ⟨rfl, -⟩
  · exact ⟨.inr ⟨name, args, rfl, h⟩, hargs⟩
  · exact ⟨.inr ⟨name, args, rfl, h⟩, hargs⟩

mutual

theorem spelled_of_resolve {e : TypeExpr} {t : Ty} {s s' : NamedVars}
    (h : Attempt.Returns (r.resolve [] true e) s t s') : t.Spelled r.Stands fun _ => True := by
  cases e with
  | blank => cases h
  | named name =>
      rw [resolve, List.lookup_nil] at h
      dsimp only at h
      split at h
      · rename_i t hlookup
        cases h
        exact spelled_of_lookupName? hlookup
      · split at h
        · obtain ⟨id, _, -, hrest⟩ := Attempt.returns_bind_iff.1 h
          cases hrest
          trivial
        · cases h
  | app name args =>
      rw [resolve] at h
      obtain ⟨ts, s₁, hargs, hname⟩ := Attempt.returns_bind_iff.1 h
      rw [Attempt.Returns, Attempt.outcome_liftExcept, Prod.mk.injEq] at hname
      exact spelled_of_applyName hname.1 (spelledList_of_resolveList hargs)
  | arrow domain codomain =>
      rw [resolve] at h
      obtain ⟨a, s₁, ha, h⟩ := Attempt.returns_bind_iff.1 h
      obtain ⟨b, s₂, hb, h⟩ := Attempt.returns_bind_iff.1 h
      cases h
      exact ⟨spelled_of_resolve ha, spelled_of_resolve hb⟩
  | nat value =>
      cases h
      trivial
  | tag value =>
      cases h
      trivial

theorem spelledList_of_resolveList {es : List TypeExpr} {ts : List Ty} {s s' : NamedVars}
    (h : Attempt.Returns (r.resolveList [] true es) s ts s') :
    Ty.SpelledList r.Stands (fun _ => True) ts := by
  match es with
  | [] =>
      cases h
      trivial
  | e :: es =>
      rw [resolveList] at h
      obtain ⟨t, s₁, ht, h⟩ := Attempt.returns_bind_iff.1 h
      obtain ⟨us, s₂, hus, h⟩ := Attempt.returns_bind_iff.1 h
      cases h
      exact ⟨spelled_of_resolve ht, spelledList_of_resolveList hus⟩

end

/-- Written types stand for some types, with their parameters numbered by first appearance. -/
def Denotes (r : DataTypes) (args : List TypeExpr) (ts : List Ty) : Prop :=
  (r.resolveList [] true args).closed = .ok ts

theorem Denotes.returns {args : List TypeExpr} {ts : List Ty} (h : r.Denotes args ts) :
    Attempt.Returns (r.resolveList [] true args) ⟨.startingAt 0, []⟩ ts
      (Attempt.outcome (r.resolveList [] true args) ⟨.startingAt 0, []⟩).2 :=
  Prod.ext h rfl

theorem Denotes.unique {args : List TypeExpr} {ts us : List Ty} (h : r.Denotes args ts)
    (h' : r.Denotes args us) : ts = us :=
  Except.ok.inj (h.symm.trans h')

theorem Denotes.of_meansSame {r' : DataTypes} {args : List TypeExpr} {ts : List Ty}
    (h : r.Denotes args ts)
    (hsame : ∀ name ∈ TypeExpr.writtenList [] args, r.MeansSame r' name) : r'.Denotes args ts := by
  have hlist : TypeExpr.MeansSameList r r' (([] : Scope).map (·.1)) args :=
    TypeExpr.meansSameList_of_written hsame
  exact congrArg Prod.fst (resolveList_of_meansSame hlist h.returns)

/-- Two lists of written types stand for the same types, up to the names of their parameters. -/
def DenotesAlike (r : DataTypes) (args args' : List TypeExpr) : Prop :=
  ∃ ts us, r.Denotes args ts ∧ r.Denotes args' us ∧ ∃ ρ : Equiv.Perm Int, Ty.renameList ρ ts = us

end DataTypes

namespace Registry

variable {r r' : Registry}

theorem templateOf_eq_ok_iff {structureName template : String} {args : List TypeExpr} :
    r.templateOf structureName args = .ok template ↔
      ∃ ts, r.data.Denotes args ts ∧ template = (Ty.instanceOf structureName ts).render := by
  rw [templateOf, Except.bind_eq_ok_iff]
  refine exists_congr fun ts => and_congr_right fun _ => ?_
  exact (Except.ok.injEq _ _).to_iff.trans eq_comm

theorem template_eq_iff (hr : r.data.Legible) {structureName template template' : String}
    {args args' : List TypeExpr} (h : r.templateOf structureName args = .ok template)
    (h' : r.templateOf structureName args' = .ok template') :
    template = template' ↔ r.data.DenotesAlike args args' := by
  obtain ⟨ts, hts, rfl⟩ := templateOf_eq_ok_iff.1 h
  obtain ⟨us, hus, rfl⟩ := templateOf_eq_ok_iff.1 h'
  rw [Ty.render_instanceOf_eq_iff hr.telling structureName
    (DataTypes.spelledList_of_resolveList hts.returns) (DataTypes.spelledList_of_resolveList hus.returns)]
  constructor
  · exact fun hρ => ⟨ts, us, hts, hus, hρ⟩
  · rintro ⟨ts', us', hts', hus', hρ⟩
    rwa [hts.unique hts', hus.unique hus']

/-- The templates of all implementations are what they would be if they were taken in now. -/
def Current (r : Registry) : Prop :=
  ∀ i ∈ r.implementations, r.templateOf i.interface.name i.decl.args = .ok i.template

/-- The names that implementations have written for types. -/
def writtenArgs (r : Registry) : List String :=
  r.implementations.flatMap fun i => TypeExpr.writtenList [] i.decl.args

theorem current_empty : Current .empty := fun _ h => absurd h List.not_mem_nil

theorem Current.register {d : Declaration} (h : r.Current) (hregister : r.register d = .ok r')
    (hnames : ∀ name ∈ d.typeNames, name ∉ r.writtenArgs) : r'.Current := by
  have hgains := register_gains r d
  rw [hregister] at hgains
  have hkept : ∀ i ∈ r.implementations,
      r'.templateOf i.interface.name i.decl.args = .ok i.template := by
    intro i hi
    obtain ⟨ts, hts, htemplate⟩ := templateOf_eq_ok_iff.1 (h i hi)
    refine templateOf_eq_ok_iff.2 ⟨ts, hts.of_meansSame fun name hname => ?_, htemplate⟩
    refine hgains.meansSame fun d' hd' hnew => ?_
    rw [List.mem_singleton.1 hd'] at hnew
    exact hnames name hnew (List.mem_flatMap.2 ⟨i, hi, hname⟩)
  cases d with
  | data d =>
      obtain ⟨data, hdata, heq⟩ := Except.bind_eq_ok_iff.1 hregister
      cases heq
      exact hkept
  | interface s =>
      obtain ⟨-, rfl⟩ := registerStructure_eq_ok_iff.1 hregister
      exact hkept
  | implementation i =>
      obtain ⟨s, template, htakes, rfl⟩ := registerImplementation_eq_ok_iff.1 hregister
      intro j hj
      rcases List.mem_append.1 hj with hj | hj
      · exact hkept j hj
      · obtain rfl := List.mem_singleton.1 hj
        exact htakes.means
  | definition d =>
      cases hregister
      exact hkept

/-- What an implementation of a structure needs, apart from being new: an argument for each parameter,
exactly one body for each operation and no other, and arguments that mean something. -/
structure Admits (r : Registry) (i : Implementation) (s : Structure) : Prop where
  interface : r.structure? i.structureName = some s
  args : i.args.length = s.params.length
  names : r.checkNamesList [] i.args = .ok ()
  means : ∃ ts, r.data.Denotes i.args ts
  bodies : (i.bodies.map (·.name)).Nodup
  supplies : ∀ name, name ∈ i.bodies.map (·.name) ↔ name ∈ s.operations.map (·.name)

theorem Admits.registerImplementation_eq_error {i : Implementation} {s : Structure}
    (h : r.Admits i s) {template : String} (htemplate : r.templateOf s.name i.args = .ok template)
    {earlier : RegisteredImplementation}
    (hearlier : (r.implementationsOf s.name).find? (·.template = template) = some earlier) :
    r.registerImplementation i =
      .error (.implementationExists s.name (renderTypeArgs i.args) earlier.args) := by
  have hbodies : checkBodies s [] i.bodies = .ok () := checkBodies_eq_ok_iff.2
    ⟨h.bodies, fun name hname => ⟨(h.supplies name).1 hname, List.not_mem_nil⟩⟩
  have hmissing := find?_isNone_body?_eq_none_iff.2 fun name => (h.supplies name).2
  unfold registerImplementation
  rw [h.interface]
  dsimp only
  rw [if_neg (not_not.2 h.args), h.names, hbodies, hmissing, htemplate]
  dsimp only [bind, Except.bind]
  rw [hearlier]
  rfl

theorem Admits.registerImplementation_iff {i : Implementation} {s : Structure} (h : r.Admits i s)
    {template : String} (htemplate : r.templateOf s.name i.args = .ok template) :
    ((∃ f, r.registerImplementation i = .error f ∧ f.kind = .registryConflict) ↔
        ∃ earlier ∈ r.implementationsOf s.name, earlier.template = template) ∧
      ((∃ r', r.registerImplementation i = .ok r') ↔
        ¬∃ earlier ∈ r.implementationsOf s.name, earlier.template = template) := by
  cases hfind : (r.implementationsOf s.name).find? (·.template = template) with
  | some earlier =>
      have hfound : ∃ earlier ∈ r.implementationsOf s.name, earlier.template = template :=
        ⟨earlier, List.mem_of_find?_eq_some hfind, by simpa using List.find?_some hfind⟩
      rw [h.registerImplementation_eq_error htemplate hfind]
      refine ⟨iff_of_true ⟨_, rfl, rfl⟩ hfound, iff_of_false ?_ (not_not.2 hfound)⟩
      rintro ⟨r', hr'⟩
      cases hr'
  | none =>
      have hnew : ∀ earlier ∈ r.implementationsOf s.name, earlier.template ≠ template :=
        fun earlier hearlier => by simpa using List.find?_eq_none.1 hfind earlier hearlier
      have hnone : ¬∃ earlier ∈ r.implementationsOf s.name, earlier.template = template := by
        rintro ⟨earlier, hearlier, htemplate⟩
        exact hnew earlier hearlier htemplate
      have hok := registerImplementation_eq_ok_iff.2 ⟨s, template, ⟨h.interface, h.args, h.names,
        h.bodies, h.supplies, htemplate, hnew⟩, rfl⟩
      rw [hok]
      refine ⟨iff_of_false ?_ hnone, iff_of_true ⟨_, rfl⟩ hnone⟩
      rintro ⟨f, hf, -⟩
      cases hf

theorem Admits.conflict_iff {i : Implementation} {s : Structure} (h : r.Admits i s)
    (hr : r.data.Legible) (hcurrent : r.Current) :
    ((∃ f, r.registerImplementation i = .error f ∧ f.kind = .registryConflict) ↔
        ∃ earlier ∈ r.implementationsOf s.name, r.data.DenotesAlike earlier.decl.args i.args) ∧
      ((∃ r', r.registerImplementation i = .ok r') ↔
        ¬∃ earlier ∈ r.implementationsOf s.name, r.data.DenotesAlike earlier.decl.args i.args) := by
  obtain ⟨ts, hts⟩ := h.means
  have htemplate : r.templateOf s.name i.args = .ok (Ty.instanceOf s.name ts).render :=
    templateOf_eq_ok_iff.2 ⟨ts, hts, rfl⟩
  have halike : (∃ earlier ∈ r.implementationsOf s.name,
        earlier.template = (Ty.instanceOf s.name ts).render) ↔
      ∃ earlier ∈ r.implementationsOf s.name, r.data.DenotesAlike earlier.decl.args i.args := by
    refine exists_congr fun earlier => and_congr_right fun hearlier => ?_
    obtain ⟨hmem, hname⟩ := List.mem_filter.1 hearlier
    have hearlierTemplate := hcurrent earlier hmem
    rw [of_decide_eq_true hname] at hearlierTemplate
    exact template_eq_iff hr hearlierTemplate htemplate
  rw [← halike]
  exact h.registerImplementation_iff htemplate

end Registry

namespace Checker

/-- Declarations that are offered one after the other, none of which takes a name for a type that an
implementation from before has written. -/
def SparesArgs (c : Checker) : List Declaration → Prop
  | [] => True
  | d :: ds => (∀ name ∈ d.typeNames, name ∉ c.registry.writtenArgs) ∧ (c.offered [d]).SparesArgs ds

theorem offered_current {c : Checker} (hc : c.registry.Current) {ds : List Declaration}
    (h : c.SparesArgs ds) : (c.offered ds).registry.Current := by
  induction ds generalizing c with
  | nil => exact hc
  | cons d ds ih =>
      rw [offered_cons]
      refine ih ?_ h.2
      rcases c.offered_singleton d with ⟨r, hregister, heq⟩ | heq
      · rw [heq]
        exact hc.register hregister h.1
      · rw [heq]
        exact hc

/-- After any declarations have been offered, an implementation that is valid by itself is refused as
one that there is if and only if an implementation of its structure has arguments that stand now for
the same types, up to the names of parameters, and taken in otherwise. No data type may have taken a
name that an implementation had written before, and the names that types are printed with must tell
them. -/
theorem offered_implementation_iff (options : Options) (ds : List Declaration) (i : Implementation)
    (s : Structure) (hspares : (empty options).SparesArgs ds)
    (hlegible : ((empty options).offered ds).registry.data.Legible)
    (hadmits : ((empty options).offered ds).registry.Admits i s) :
    let r := ((empty options).offered ds).registry
    ((∃ f, r.registerImplementation i = .error f ∧ f.kind = .registryConflict) ↔
        ∃ earlier ∈ r.implementationsOf s.name, r.data.DenotesAlike earlier.decl.args i.args) ∧
      ((∃ r', r.registerImplementation i = .ok r') ↔
        ¬∃ earlier ∈ r.implementationsOf s.name, r.data.DenotesAlike earlier.decl.args i.args) :=
  hadmits.conflict_iff hlegible (offered_current Registry.current_empty hspares)

/-- A structure with one operation on one type. -/
def negatable : Structure :=
  ⟨"N", [⟨"A", none⟩], [⟨"neg", .arrow (.named "A") (.named "A"), false⟩], []⟩

/-- Its implementation for some type. -/
def negationAt (t : TypeExpr) : Implementation := ⟨"N", [t], [⟨"neg", [], some "builtin_neg", none⟩]⟩

/-- What is declared after some declarations have been offered to a checker that knows nothing. -/
def offering (ds : List Declaration) : Registry :=
  ((empty ⟨false, false, 0, true, false⟩).offered ds).registry

/-- Pairs, and an implementation for all of them. -/
def pairing : List Declaration :=
  [.data ⟨"Pair", ["A", "B"], [⟨"Both", [⟨none, .named "A"⟩, ⟨none, .named "B"⟩]⟩]⟩,
    .interface negatable, .implementation (negationAt (.app "Pair" [.named "a", .named "b"]))]

theorem admits_negationAt {r : Registry} (h : r.structure? "N" = some negatable) {t : TypeExpr}
    (hnames : r.checkNamesList [] [t] = .ok ()) {ts : List Ty} (hmeans : r.data.Denotes [t] ts) :
    r.Admits (negationAt t) negatable :=
  ⟨h, rfl, hnames, ⟨ts, hmeans⟩, List.nodup_singleton _, fun _ => Iff.rfl⟩

theorem offered_implementation_pair :
    (∃ f, (offering pairing).registerImplementation
        (negationAt (.app "Pair" [.named "u", .named "v"])) = .error f ∧ f.kind = .registryConflict) ∧
      ∃ r, (offering pairing).registerImplementation
        (negationAt (.app "Pair" [.named "u", .named "u"])) = .ok r := by
  have hspares : (empty ⟨false, false, 0, true, false⟩).SparesArgs pairing := by
    refine ⟨by decide, by decide, by decide, trivial⟩
  have hlegible : (offering pairing).data.Legible := by
    refine ⟨by decide, by decide, rfl, fun t h => ?_⟩
    cases h
  have hearlier : (offering pairing).data.Denotes [.app "Pair" [.named "a", .named "b"]]
      [.instanceOf "Pair" [.var 0, .var 1]] := rfl
  have hother : (offering pairing).data.Denotes [.app "Pair" [.named "u", .named "v"]]
      [.instanceOf "Pair" [.var 0, .var 1]] := rfl
  have hequal : (offering pairing).data.Denotes [.app "Pair" [.named "u", .named "u"]]
      [.instanceOf "Pair" [.var 0, .var 0]] := rfl
  have hregistered : (offering pairing).implementationsOf "N" =
      [⟨negatable, negationAt (.app "Pair" [.named "a", .named "b"]), "N(Pair('a, 'b))"⟩] := rfl
  constructor
  · have halike : ∃ earlier ∈ (offering pairing).implementationsOf "N",
        (offering pairing).data.DenotesAlike earlier.decl.args
          [.app "Pair" [.named "u", .named "v"]] :=
      ⟨⟨negatable, negationAt (.app "Pair" [.named "a", .named "b"]), "N(Pair('a, 'b))"⟩,
        hregistered ▸ List.mem_singleton_self _, _, _, hearlier, hother, Equiv.refl Int, rfl⟩
    exact (offered_implementation_iff _ pairing _ negatable hspares hlegible
      (admits_negationAt rfl rfl hother)).1.2 halike
  · refine (offered_implementation_iff _ pairing _ negatable hspares hlegible
      (admits_negationAt rfl rfl hequal)).2.2 ?_
    rintro ⟨earlier, hmem, ts, us, hts, hus, ρ, hρ⟩
    obtain rfl := List.mem_singleton.1 (hregistered ▸ hmem)
    obtain rfl := hearlier.unique hts
    obtain rfl := hequal.unique hus
    have hargs := (Ty.data.inj (List.cons.inj hρ).1).2.2
    have hfirst : ρ 0 = 0 := Ty.var.inj (List.cons.inj hargs).1
    have hsecond : ρ 1 = 0 := Ty.var.inj (List.cons.inj (List.cons.inj hargs).2).1
    exact absurd (ρ.injective (hfirst.trans hsecond.symm)) (by decide)

/-- Templates are not made anew, and not all types are printed apart. An implementation is taken in
again when a data type has taken the name that it is for, and one for a data type that has the name of
the scalar type is refused where there is one for the scalar type. -/
theorem implementation_overtaken :
    let overtaken := offering [.interface negatable, .implementation (negationAt (.named "Real")),
      .data ⟨"Real", [], [⟨"Only", []⟩]⟩]
    let mixed := offering [.data ⟨"Scalar", [], [⟨"Only", []⟩]⟩, .interface negatable,
      .implementation (negationAt (.named "Real"))]
    (overtaken.Admits (negationAt (.named "Real")) negatable ∧
        (∃ earlier ∈ overtaken.implementationsOf "N",
          overtaken.data.DenotesAlike earlier.decl.args [.named "Real"]) ∧
        ∃ r, overtaken.registerImplementation (negationAt (.named "Real")) = .ok r) ∧
      mixed.Admits (negationAt (.named "Scalar")) negatable ∧
        (¬∃ earlier ∈ mixed.implementationsOf "N",
          mixed.data.DenotesAlike earlier.decl.args [.named "Scalar"]) ∧
        ∃ f, mixed.registerImplementation (negationAt (.named "Scalar")) = .error f ∧
          f.kind = .registryConflict := by
  intro overtaken mixed
  have hreal : overtaken.data.Denotes [.named "Real"] [.instanceOf "Real" []] := rfl
  have hscalar : mixed.data.Denotes [.named "Real"] [.scalar] := rfl
  have hother : mixed.data.Denotes [.named "Scalar"] [.instanceOf "Scalar" []] := rfl
  refine ⟨⟨admits_negationAt rfl rfl hreal, ⟨_, List.mem_singleton_self _, _, _, hreal, hreal,
    Equiv.refl Int, rfl⟩, _, rfl⟩, admits_negationAt rfl rfl hother, ?_, _, rfl, rfl⟩
  rintro ⟨earlier, hmem, ts, us, hts, hus, ρ, hρ⟩
  obtain rfl := List.mem_singleton.1 hmem
  obtain rfl := hscalar.unique hts
  obtain rfl := hother.unique hus
  exact absurd (Ty.data.inj (List.cons.inj hρ).1).1 (by decide)

end Checker

end Formulary
