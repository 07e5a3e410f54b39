import Formulary.Proofs.Conservativity

namespace Formulary

theorem Except.bind_eq_ok_iff {ε α β : Type} {x : Except ε α} {f : α → Except ε β} {b : β} :
    (x >>= f) = .ok b ↔ ∃ a, x = .ok a ∧ f a = .ok b := by
  cases x with
  | ok a =>
      constructor
      · exact fun h => ⟨a, rfl, h⟩
      · rintro ⟨a', heq, h⟩
        cases heq
        exact h
  | error e =>
      constructor
      · exact fun h => by cases h
      · rintro ⟨a, h, -⟩
        cases h

/-- Steps behind a check that gives nothing. -/
theorem Except.check_eq_ok_iff {ε α : Type} {check : Except ε Unit} {x : Except ε α} {a : α} :
    (check >>= fun _ => x) = .ok a ↔ check = .ok () ∧ x = .ok a :=
  Except.bind_eq_ok_iff.trans
    ⟨fun ⟨_, hcheck, hx⟩ => ⟨hcheck, hx⟩, fun ⟨hcheck, hx⟩ => ⟨(), hcheck, hx⟩⟩

/-- Steps behind a refusal. -/
theorem Except.guard_eq_ok_iff {ε α : Type} {p : Prop} [Decidable p] {e : ε}
    {x : Except ε α} {a : α} :
    (if p then throw e >>= fun _ : PUnit => x else x) = .ok a ↔ ¬p ∧ x = .ok a := by
  split
  · rename_i hp
    constructor
    · exact fun h => by cases h
    · exact fun h => absurd hp h.1
  · rename_i hp
    exact ⟨fun h => ⟨hp, h⟩, fun h => h.2⟩

theorem Except.error_eq_ok_iff {ε α : Type} {p : Prop} {e : ε} {a : α} (h : ¬p) :
    (Except.error e : Except ε α) = .ok a ↔ p := by
  constructor
  · intro heq
    cases heq
  · intro hp
    exact absurd hp h

theorem find?_isSome_iff_mem_map {α : Type} {l : List α} {f : α → String} {name : String} :
    (l.find? (fun a => decide (f a = name))).isSome = true ↔ name ∈ l.map f := by
  simp

theorem firstRepeated?_eq_none_iff {earlier names : List String} :
    firstRepeated? earlier names = none ↔ names.Nodup ∧ ∀ name ∈ names, name ∉ earlier := by
  induction names generalizing earlier with
  | nil => simp [firstRepeated?]
  | cons name rest ih =>
      rw [firstRepeated?]
      split
      · rename_i hmem
        simp [hmem]
      · rename_i hmem
        rw [ih, List.nodup_cons, List.forall_mem_cons]
        grind

theorem eq_of_mem_flatMap {α β : Type} {l : List α} {f : α → List β} (h : (l.flatMap f).Nodup)
    {a a' : α} (ha : a ∈ l) (ha' : a' ∈ l) {b : β} (hb : b ∈ f a) (hb' : b ∈ f a') : a = a' := by
  by_contra hne
  have : Std.Symm (Function.onFun List.Disjoint f) := ⟨fun _ _ hdisjoint => hdisjoint.symm⟩
  exact (List.nodup_flatMap.1 h).2.forall ha ha' hne hb hb'

namespace DataTypes

/-- The names of all variants, in the order of declaration. -/
def constructorNames (r : DataTypes) : List String :=
  r.types.flatMap fun d => d.variants.map (·.name)

theorem variant?_isSome_iff {r : DataTypes} {name : String} :
    (r.variant? name).isSome = true ↔ name ∈ r.constructorNames := by
  simp [variant?, constructorNames, List.findSome?_isSome_iff]

theorem find?_isSome_iff {r : DataTypes} {name : String} :
    (r.find? name).isSome = true ↔ name ∈ r.typeNames :=
  find?_isSome_iff_mem_map

theorem checkVariants_eq_ok_iff {r : DataTypes} {dataName : String} {earlier : List String}
    {vs : List Variant} :
    r.checkVariants dataName earlier vs = .ok () ↔ (vs.map (·.name)).Nodup ∧
      ∀ name ∈ vs.map (·.name), name ∉ earlier ∧ name ∉ r.constructorNames := by
  induction vs generalizing earlier with
  | nil => simp [checkVariants]
  | cons v rest ih =>
      rw [checkVariants, List.map_cons, List.nodup_cons, List.forall_mem_cons,
        ← variant?_isSome_iff]
      split
      · rename_i hmem
        simp [hmem]
      · rename_i hmem
        split
        · rename_i howner
          simp [howner]
        · rename_i hnone
          rw [ih]
          simp only [hnone]
          grind

/-- What a data type needs for being taken in: a name that no other has, and names of their own for
its parameters and for its variants. -/
structure Takes (r : DataTypes) (d : DataType) : Prop where
  named : d.name ≠ ""
  name : d.name ∉ r.typeNames
  params : d.params.Nodup
  variants : (d.variants.map (·.name)).Nodup
  constructors : ∀ name ∈ d.variants.map (·.name), name ∉ r.constructorNames

theorem register_eq_ok_iff {r r' : DataTypes} {d : DataType} :
    r.register d = .ok r' ↔ r.Takes d ∧ r' = ⟨r.types ++ [d]⟩ := by
  have hparams : firstRepeated? [] d.params = none ↔ _ := firstRepeated?_eq_none_iff
  have hvariants : r.checkVariants d.name [] d.variants = .ok () ↔ _ := checkVariants_eq_ok_iff
  rw [register]
  split
  · rename_i hname
    exact Except.error_eq_ok_iff fun h => h.1.named hname
  split
  · rename_i hname hfound
    exact Except.error_eq_ok_iff fun h => h.1.name (find?_isSome_iff.1 hfound)
  rename_i hname hfound
  split
  · rename_i param hrepeated
    refine Except.error_eq_ok_iff fun h => ?_
    have hnone := hparams.2 ⟨h.1.params, fun _ _ => List.not_mem_nil⟩
    cases hrepeated.symm.trans hnone
  rename_i hnone
  split
  · rename_i e hcheck
    refine Except.error_eq_ok_iff fun h => ?_
    have hok := hvariants.2 ⟨h.1.variants, fun name hmem =>
      ⟨List.not_mem_nil, h.1.constructors name hmem⟩⟩
    cases hcheck.symm.trans hok
  · rename_i hcheck
    obtain ⟨hnodup, hnew⟩ := hvariants.1 hcheck
    have htakes : r.Takes d := ⟨hname, fun h => hfound (find?_isSome_iff.2 h), (hparams.1 hnone).1,
      hnodup, fun name hmem => (hnew name hmem).2⟩
    rw [Except.ok.injEq, eq_comm]
    exact (and_iff_right htakes).symm

/-- What holds of data types at all times: all types, all variants, and the parameters of each type
have names of their own. -/
structure Coherent (r : DataTypes) : Prop where
  types : r.typeNames.Nodup
  variants : r.constructorNames.Nodup
  params : ∀ d ∈ r.types, d.params.Nodup

theorem coherent_empty : Coherent .empty := ⟨List.nodup_nil, List.nodup_nil, by simp [empty]⟩

theorem Coherent.register {r r' : DataTypes} {d : DataType} (hr : r.Coherent)
    (h : r.register d = .ok r') : r'.Coherent := by
  obtain ⟨htakes, rfl⟩ := register_eq_ok_iff.1 h
  refine ⟨?_, ?_, ?_⟩
  · rw [typeNames, List.map_append, List.nodup_append_comm]
    exact List.nodup_cons.2 ⟨htakes.name, hr.types⟩
  · rw [constructorNames, List.flatMap_append, List.flatMap_singleton, List.nodup_append]
    refine ⟨hr.variants, htakes.variants, fun a ha b hb heq => ?_⟩
    exact htakes.constructors b hb (heq ▸ ha)
  · intro d' hd'
    rcases List.mem_append.1 hd' with hd' | hd'
    · exact hr.params d' hd'
    · exact List.mem_singleton.1 hd' ▸ htakes.params

theorem Coherent.variantNames {r : DataTypes} (h : r.Coherent) {d : DataType} (hd : d ∈ r.types) :
    (d.variants.map (·.name)).Nodup :=
  (List.nodup_flatMap.1 h.variants).1 d hd

theorem Coherent.owner_unique {r : DataTypes} (h : r.Coherent) {d d' : DataType}
    (hd : d ∈ r.types) (hd' : d' ∈ r.types) {name : String}
    (hname : name ∈ d.variants.map (·.name)) (hname' : name ∈ d'.variants.map (·.name)) :
    d = d' :=
  eq_of_mem_flatMap h.variants hd hd' hname hname'

theorem Coherent.variant?_of_mem {r : DataTypes} (h : r.Coherent) {d : DataType} {v : Variant}
    (hd : d ∈ r.types) (hv : v ∈ d.variants) : r.variant? v.name = some (d, v) := by
  have hname : v.name ∈ d.variants.map (·.name) := List.mem_map_of_mem hv
  have hsome : (r.variant? v.name).isSome = true :=
    variant?_isSome_iff.2 (List.mem_flatMap.2 ⟨d, hd, hname⟩)
  obtain ⟨⟨d', v'⟩, hfound⟩ := Option.isSome_iff_exists.1 hsome
  obtain ⟨hd', hv', hname'⟩ := mem_of_variant? hfound
  obtain rfl := h.owner_unique hd hd' hname (hname' ▸ List.mem_map_of_mem hv')
  obtain rfl := List.inj_on_of_nodup_map (h.variantNames hd) hv hv' hname'.symm
  exact hfound

theorem Coherent.variant?_eq_some_iff {r : DataTypes} (h : r.Coherent) {name : String}
    {d : DataType} {v : Variant} :
    r.variant? name = some (d, v) ↔ d ∈ r.types ∧ v ∈ d.variants ∧ v.name = name := by
  refine ⟨mem_of_variant?, ?_⟩
  rintro ⟨hd, hv, rfl⟩
  exact h.variant?_of_mem hd hv

theorem Coherent.find?_eq_some_iff {r : DataTypes} (h : r.Coherent) {name : String} {d : DataType} :
    r.find? name = some d ↔ d ∈ r.types ∧ d.name = name := by
  constructor
  · intro hfound
    exact ⟨List.mem_of_find?_eq_some hfound, by simpa using List.find?_some hfound⟩
  · rintro ⟨hd, rfl⟩
    exact find?_of_nodup h.types hd

end DataTypes

theorem Structure.operation?_isSome_iff {s : Structure} {name : String} :
    (s.operation? name).isSome = true ↔ name ∈ s.operations.map (·.name) :=
  find?_isSome_iff_mem_map

theorem Implementation.body?_isSome_iff {i : Implementation} {name : String} :
    (i.body? name).isSome = true ↔ name ∈ i.bodies.map (·.name) :=
  find?_isSome_iff_mem_map

namespace Registry

/-- The names of all operations, in the order of declaration. -/
def declaredOperations (r : Registry) : List String :=
  r.structures.flatMap fun s => s.operations.map (·.name)

theorem structure?_isSome_iff {r : Registry} {name : String} :
    (r.structure? name).isSome = true ↔ name ∈ r.structureNames :=
  find?_isSome_iff_mem_map

theorem structureFor?_isSome_iff {r : Registry} {name : String} :
    (r.structureFor? name).isSome = true ↔ name ∈ r.declaredOperations := by
  rw [structureFor?, List.find?_isSome, declaredOperations, List.mem_flatMap]
  exact exists_congr fun s => and_congr_right fun _ => Structure.operation?_isSome_iff

theorem checkParams_eq_ok_iff {r : Registry} {structureName : String} {earlier : List String}
    {ps : List Binder} :
    r.checkParams structureName earlier ps = .ok () ↔ (ps.map (·.name)).Nodup ∧
      (∀ name ∈ ps.map (·.name), name ∉ earlier) ∧
        ∀ p ∈ ps, ∀ kind, p.type = some kind → ∃ t, r.data.resolveClosed [] kind = .ok t := by
  induction ps generalizing earlier with
  | nil => simp [checkParams]
  | cons p rest ih =>
      rw [checkParams, List.map_cons, List.nodup_cons, List.forall_mem_cons, List.forall_mem_cons]
      dsimp only
      rw [Except.guard_eq_ok_iff]
      cases hkind : p.type with
      | none =>
          simp only [reduceCtorEq, false_implies, implies_true, true_and]
          rw [ih]
          grind
      | some kind =>
          simp only [Except.bind_eq_ok_iff, ih, Option.some.injEq, forall_eq']
          grind

theorem checkOperations_eq_ok_iff {r : Registry} {s : Structure} {earlier : List String}
    {ops : List Operation} :
    r.checkOperations s earlier ops = .ok () ↔ (ops.map (·.name)).Nodup ∧
      (∀ name ∈ ops.map (·.name), name ∉ earlier ∧ name ∉ r.declaredOperations) ∧
        ∀ op ∈ ops, r.checkNames (s.params.map (·.name)) op.signature = .ok () := by
  induction ops generalizing earlier with
  | nil => simp [checkOperations]
  | cons op rest ih =>
      rw [checkOperations, List.map_cons, List.nodup_cons, List.forall_mem_cons,
        List.forall_mem_cons, ← structureFor?_isSome_iff]
      dsimp only
      rw [Except.guard_eq_ok_iff]
      cases howner : r.structureFor? op.name with
      | some owner => simp [bind, Except.bind, throw, throwThe, MonadExceptOf.throw]
      | none =>
          simp only [Except.bind_eq_ok_iff, ih]
          grind

/-- What a structure needs for being taken in: a name that no other has, parameters with names of
their own whose kinds mean something, and operations that have names which no other operation has,
with signatures that mean something. -/
structure TakesStructure (r : Registry) (s : Structure) : Prop where
  name : s.name ∉ r.structureNames
  params : (s.params.map (·.name)).Nodup
  kinds : ∀ p ∈ s.params, ∀ kind, p.type = some kind → ∃ t, r.data.resolveClosed [] kind = .ok t
  operations : (s.operations.map (·.name)).Nodup
  undeclared : ∀ name ∈ s.operations.map (·.name), name ∉ r.declaredOperations
  signatures : ∀ op ∈ s.operations, r.checkNames (s.params.map (·.name)) op.signature = .ok ()

theorem registerStructure_eq_ok_iff {r r' : Registry} {s : Structure} :
    r.registerStructure s = .ok r' ↔
      r.TakesStructure s ∧ r' = { r with structures := r.structures ++ [s] } := by
  unfold registerStructure
  dsimp only
  rw [Except.guard_eq_ok_iff, structure?_isSome_iff, Except.check_eq_ok_iff, Except.check_eq_ok_iff,
    checkParams_eq_ok_iff, checkOperations_eq_ok_iff]
  constructor
  · rintro ⟨hname, ⟨hparams, -, hkinds⟩, ⟨hoperations, hnew, hsignatures⟩, heq⟩
    cases heq
    exact ⟨⟨hname, hparams, hkinds, hoperations, fun name hmem => (hnew name hmem).2, hsignatures⟩,
      rfl⟩
  · rintro ⟨htakes, rfl⟩
    exact ⟨htakes.name, ⟨htakes.params, fun _ _ => List.not_mem_nil, htakes.kinds⟩,
      ⟨htakes.operations, fun name hmem => ⟨List.not_mem_nil, htakes.undeclared name hmem⟩,
        htakes.signatures⟩, rfl⟩

theorem checkBodies_eq_ok_iff {s : Structure} {earlier : List String}
    {bodies : List OperationBody} :
    checkBodies s earlier bodies = .ok () ↔ (bodies.map (·.name)).Nodup ∧
      ∀ name ∈ bodies.map (·.name), name ∈ s.operations.map (·.name) ∧ name ∉ earlier := by
  induction bodies generalizing earlier with
  | nil => simp [checkBodies]
  | cons body rest ih =>
      rw [checkBodies, List.map_cons, List.nodup_cons, List.forall_mem_cons,
        ← Structure.operation?_isSome_iff]
      dsimp only
      rw [Except.guard_eq_ok_iff, Except.guard_eq_ok_iff, ih, Option.isNone_iff_eq_none,
        Option.isSome_iff_ne_none]
      grind

/-- What an implementation of a structure needs for being taken in: an argument for each parameter,
exactly one body for each operation and no other, and arguments that mean something which no earlier
implementation is for. -/
structure TakesImplementation (r : Registry) (i : Implementation) (s : Structure)
    (template : String) : Prop where
  interface : r.structure? i.structureName = some s
  args : i.args.length = s.params.length
  names : r.checkNamesList [] i.args = .ok ()
  bodies : (i.bodies.map (·.name)).Nodup
  supplies : ∀ name, name ∈ i.bodies.map (·.name) ↔ name ∈ s.operations.map (·.name)
  means : r.templateOf s.name i.args = .ok template
  isNew : ∀ earlier ∈ r.implementationsOf s.name, earlier.template ≠ template

theorem find?_isNone_body?_eq_none_iff {i : Implementation} {ops : List Operation} :
    (ops.find? fun op => (i.body? op.name).isNone) = none ↔
      ∀ name ∈ ops.map (·.name), name ∈ i.bodies.map (·.name) := by
  rw [List.find?_eq_none, List.forall_mem_map]
  refine forall₂_congr fun op _ => ?_
  rw [← Implementation.body?_isSome_iff, Option.isNone_iff_eq_none, Option.isSome_iff_ne_none]

theorem registerImplementation_eq_ok_iff {r r' : Registry} {i : Implementation} :
    r.registerImplementation i = .ok r' ↔ ∃ s template, r.TakesImplementation i s template ∧
      r' = { r with implementations := r.implementations ++ [⟨s, i, template⟩] } := by
  unfold registerImplementation
  cases hs : r.structure? i.structureName with
  | none =>
      refine ⟨nofun, ?_⟩
      rintro ⟨s, template, htakes, -⟩
      cases hs.symm.trans htakes.interface
  | some s =>
      dsimp only
      rw [Except.guard_eq_ok_iff, not_not, Except.check_eq_ok_iff, Except.check_eq_ok_iff,
        checkBodies_eq_ok_iff]
      constructor
      · rintro ⟨hargs, hnames, ⟨hbodies, hdeclared⟩, hrest⟩
        split at hrest
        · cases hrest
        · rename_i hmissing
          obtain ⟨template, htemplate, hlast⟩ := Except.bind_eq_ok_iff.1 hrest
          split at hlast
          · cases hlast
          · rename_i hearlier
            cases hlast
            have hall := find?_isNone_body?_eq_none_iff.1
              (Option.eq_none_iff_forall_ne_some.2 hmissing)
            have hnew := List.find?_eq_none.1 (Option.eq_none_iff_forall_ne_some.2 hearlier)
            exact ⟨s, template, ⟨hs, hargs, hnames, hbodies,
              fun name => ⟨fun hname => (hdeclared name hname).1, hall name⟩, htemplate,
              fun earlier hmem => by simpa using hnew earlier hmem⟩, rfl⟩
      · rintro ⟨s', template, htakes, rfl⟩
        cases hs.symm.trans htakes.interface
        refine ⟨htakes.args, htakes.names, ⟨htakes.bodies, fun name hname =>
          ⟨(htakes.supplies name).1 hname, List.not_mem_nil⟩⟩, ?_⟩
        have hall := find?_isNone_body?_eq_none_iff.2 fun name => (htakes.supplies name).2
        have hnew : (r.implementationsOf s.name).find? (·.template = template) = none :=
          List.find?_eq_none.2 fun earlier hmem => by simpa using htakes.isNew earlier hmem
        rw [hall]
        refine Except.bind_eq_ok_iff.2 ⟨template, htakes.means, ?_⟩
        rw [hnew]
        rfl

/-- What holds of a registry at all times. Structures and operations have names of their own, and
every implementation belongs to a declared structure, with an argument for each parameter and one
body for each operation. -/
structure Coherent (r : Registry) : Prop where
  data : r.data.Coherent
  structures : r.structureNames.Nodup
  operations : r.declaredOperations.Nodup
  founded : r.Founded
  bodies : ∀ i ∈ r.implementations,
    (i.decl.bodies.map (·.name)).Perm (i.interface.operations.map (·.name))

theorem coherent_empty : Coherent .empty :=
  ⟨DataTypes.coherent_empty, List.nodup_nil, List.nodup_nil, by simp [Founded, empty],
    by simp [empty]⟩

theorem Coherent.operationNames {r : Registry} (h : r.Coherent) {s : Structure}
    (hs : s ∈ r.structures) : (s.operations.map (·.name)).Nodup :=
  (List.nodup_flatMap.1 h.operations).1 s hs

theorem Coherent.registerData {r r' : Registry} {d : DataType} (h : r.Coherent)
    (hregister : r.registerData d = .ok r') : r'.Coherent := by
  obtain ⟨data, hdata, heq⟩ := Except.bind_eq_ok_iff.1 hregister
  cases heq
  exact ⟨h.data.register hdata, h.structures, h.operations, h.founded, h.bodies⟩

theorem Coherent.registerStructure {r r' : Registry} {s : Structure} (h : r.Coherent)
    (hregister : r.registerStructure s = .ok r') : r'.Coherent := by
  have hfounded : r'.Founded := by
    have hends := register_founded h.founded (.interface s)
    rwa [show r.register (.interface s) = .ok r' from hregister] at hends
  obtain ⟨htakes, rfl⟩ := registerStructure_eq_ok_iff.1 hregister
  refine ⟨h.data, ?_, ?_, hfounded, h.bodies⟩
  · rw [structureNames, List.map_append, List.nodup_append_comm]
    exact List.nodup_cons.2 ⟨htakes.name, h.structures⟩
  · rw [declaredOperations, List.flatMap_append, List.flatMap_singleton, List.nodup_append]
    refine ⟨h.operations, htakes.operations, fun a ha b hb heq => ?_⟩
    exact htakes.undeclared b hb (heq ▸ ha)

theorem Coherent.registerImplementation {r r' : Registry} {i : Implementation} (h : r.Coherent)
    (hregister : r.registerImplementation i = .ok r') : r'.Coherent := by
  have hfounded : r'.Founded := by
    have hends := register_founded h.founded (.implementation i)
    rwa [show r.register (.implementation i) = .ok r' from hregister] at hends
  obtain ⟨s, template, htakes, rfl⟩ := registerImplementation_eq_ok_iff.1 hregister
  refine ⟨h.data, h.structures, h.operations, hfounded, fun j hj => ?_⟩
  rcases List.mem_append.1 hj with hj | hj
  · exact h.bodies j hj
  · obtain rfl := List.mem_singleton.1 hj
    have hs := List.mem_of_find?_eq_some htakes.interface
    exact (List.perm_ext_iff_of_nodup htakes.bodies (h.operationNames hs)).2 htakes.supplies

theorem Coherent.register {r r' : Registry} {d : Declaration} (h : r.Coherent)
    (hregister : r.register d = .ok r') : r'.Coherent := by
  cases d with
  | data d => exact h.registerData hregister
  | interface s => exact h.registerStructure hregister
  | implementation i => exact h.registerImplementation hregister
  | definition d =>
      cases hregister
      exact h

end Registry

namespace Checker

theorem outcome_declare_of_ok {change : Registry → Except Fault Registry} {c : Checker}
    {r : Registry} (h : change c.registry = .ok r) :
    (declare change).outcome c = (.ok (), { c with registry := r }) := by
  rw [outcome_declare, h]

/-- A refused declaration changes nothing. -/
theorem outcome_declare_of_refused {change : Registry → Except Fault Registry} {c : Checker}
    (h : ∀ r, change c.registry ≠ .ok r) : ∃ f, (declare change).outcome c = (.error f, c) := by
  rw [outcome_declare]
  cases hchange : change c.registry with
  | ok r => exact absurd hchange (h r)
  | error f => exact ⟨.fault f, rfl⟩

/-- A checker after declarations have been offered to its registry one after the other, whether they
were taken in or not. -/
def offered (c : Checker) (ds : List Declaration) : Checker :=
  ds.foldl (fun c d => ((declare (·.register d)).outcome c).2) c

theorem offered_cons (c : Checker) (d : Declaration) (ds : List Declaration) :
    c.offered (d :: ds) = (c.offered [d]).offered ds := rfl

theorem offered_singleton (c : Checker) (d : Declaration) :
    (∃ r, c.registry.register d = .ok r ∧ c.offered [d] = { c with registry := r }) ∨
      c.offered [d] = c := by
  rw [offered, List.foldl_cons, List.foldl_nil, outcome_declare]
  cases c.registry.register d with
  | ok registry => exact .inl ⟨registry, rfl, rfl⟩
  | error f => exact .inr rfl

theorem offered_coherent {c : Checker} (h : c.registry.Coherent) (ds : List Declaration) :
    (c.offered ds).registry.Coherent := by
  induction ds generalizing c with
  | nil => exact h
  | cons d ds ih =>
      rw [offered_cons]
      rcases c.offered_singleton d with ⟨r, hregister, heq⟩ | heq
      · rw [heq]
        exact ih (h.register hregister)
      · rw [heq]
        exact ih h

theorem types_offered (c : Checker) (ds : List Declaration) :
    c.registry.data.types <+: (c.offered ds).registry.data.types := by
  induction ds generalizing c with
  | nil => exact List.prefix_rfl
  | cons d ds ih =>
      rw [offered_cons]
      refine List.IsPrefix.trans ?_ (ih _)
      rcases c.offered_singleton d with ⟨r, hregister, heq⟩ | heq
      · have hgains := Registry.register_gains c.registry d
        rw [hregister] at hgains
        rw [heq]
        exact ⟨_, hgains.types.symm⟩
      · rw [heq]

end Checker

end Formulary
