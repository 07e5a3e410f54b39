import Formulary.Registry.Store
import Formulary.Proofs.Registering

namespace Formulary

namespace Attempt

variable {σ ε α β γ δ : Type} {p : σ → γ → Prop}

/-- Steps do to a state what a function does to something that the state holds: where the function
gives a result the steps go through and leave a state that holds it, and where it fails they fail
likewise and leave the state as it was. -/
def Follows (m : Attempt σ ε α) (s : σ) (p : σ → γ → Prop) : Except ε γ → Prop
  | .ok c => ∃ a s', m.Returns s a s' ∧ p s' c
  | .error e => m.outcome s = (.error e, s)

theorem Follows.look {m : Attempt σ ε α} {f : α → Attempt σ ε β} {s : σ} {r : Except ε α}
    {g : α → Except ε γ} (h : m.outcome s = (r, s))
    (hrest : ∀ a, r = .ok a → (f a).Follows s p (g a)) : (m >>= f).Follows s p (r >>= g) := by
  cases r with
  | ok a =>
      have hf := hrest a rfl
      show (m >>= f).Follows s p (g a)
      cases hg : g a with
      | ok c =>
          rw [hg] at hf
          obtain ⟨b, s', hreturns, hp⟩ := hf
          exact ⟨b, s', returns_bind_iff.2 ⟨a, s, h, hreturns⟩, hp⟩
      | error e =>
          rw [hg] at hf
          show (m >>= f).outcome s = _
          rw [outcome_bind, h]
          exact hf
  | error e =>
      show (m >>= f).outcome s = _
      rw [outcome_bind, h]

theorem Follows.ofState {f : σ → Attempt σ ε β} {s : σ} {r : Except ε γ}
    (h : (f s).Follows s p r) : (get >>= f).Follows s p r := by
  exact look (r := .ok s) (g := fun _ => r) rfl fun a ha => by
    cases ha
    exact h

theorem Follows.guard {P Q : Prop} [Decidable P] [Decidable Q] (hPQ : P ↔ Q) {e : ε}
    {f : β → Attempt σ ε α} {m : Attempt σ ε α} {s : σ} {r : Except ε γ}
    (h : ¬Q → m.Follows s p r) :
    (if P then throw e >>= f else m).Follows s p (if Q then .error e else r) := by
  by_cases hQ : Q
  · rw [if_pos hQ, if_pos (hPQ.2 hQ)]
    rfl
  · rw [if_neg hQ, if_neg fun hP => hQ (hPQ.1 hP)]
    exact h hQ

theorem Follows.imp {q : σ → γ → Prop} {m : Attempt σ ε α} {s : σ} {r : Except ε γ}
    (h : m.Follows s p r) (hpq : ∀ s' c, r = .ok c → p s' c → q s' c) : m.Follows s q r := by
  cases r with
  | ok c =>
      obtain ⟨a, s', hreturns, hp⟩ := h
      exact ⟨a, s', hreturns, hpq s' c rfl hp⟩
  | error e => exact h

end Attempt

theorem DataTypes.find?_append_of_new {r : DataTypes} {d : DataType} (h : d.name ∉ r.typeNames)
    (name : String) : DataTypes.find? ⟨r.types ++ [d]⟩ name =
      if d.name = name then some d else r.find? name := by
  rw [find?, find?, List.find?_append]
  split
  · rename_i hname
    have hnone : r.types.find? (·.name = name) = none := List.find?_eq_none.2 fun d' hd' => by
      simpa [← hname] using fun heq : d'.name = d.name => h (heq ▸ List.mem_map_of_mem hd')
    simp [hname, hnone]
  · rename_i hname
    simp [hname]

namespace DataStore

/-- A store keeps some data types: under their names, in their order, and each variant with its
place. -/
structure Holds (s : DataStore) (r : DataTypes) : Prop where
  order : s.order = r.typeNames
  types : ∀ name, s.types.get? name = r.find? name
  variants : ∀ name, s.lookupVariant? name = (r.variant? name).map fun (d, v) => (d.name, some v)

theorem holds_empty : Holds .empty .empty := ⟨rfl, fun _ => rfl, fun _ => rfl⟩

theorem Holds.view {s : DataStore} {r : DataTypes} (h : s.Holds r) (hr : r.Coherent) :
    s.view = r := by
  have hfilter : ∀ l ⊆ r.types, (l.map (·.name)).filterMap s.types.get? = l := by
    intro l hl
    induction l with
    | nil => rfl
    | cons d l ih =>
        have hd : s.types.get? d.name = some d := by
          rw [h.types]
          exact hr.find?_eq_some_iff.2 ⟨hl List.mem_cons_self, rfl⟩
        rw [List.map_cons, List.filterMap_cons_some hd, ih fun _ hmem => hl (.tail _ hmem)]
  show DataTypes.mk _ = _
  rw [h.order, DataTypes.typeNames, hfilter _ (List.Subset.refl _)]

/-- The owner that the index gives for a variant. -/
theorem Holds.owner {s : DataStore} {r : DataTypes} (h : s.Holds r) (name : String) :
    (s.variants.get? name).map (·.typeName) = (r.variant? name).map (·.1.name) := by
  have hlookup := congrArg (Option.map Prod.fst) (h.variants name)
  rwa [lookupVariant?, Option.map_map, Option.map_map] at hlookup

theorem outcome_checkVariants {s : DataStore} {r : DataTypes} (h : s.Holds r) (dataName : String)
    (earlier : List String) (vs : List Variant) :
    (checkVariants dataName earlier vs).outcome s = (r.checkVariants dataName earlier vs, s) := by
  induction vs generalizing earlier with
  | nil => rfl
  | cons v rest ih =>
      rw [checkVariants, DataTypes.checkVariants]
      split
      · rfl
      · have howner := h.owner v.name
        rw [Attempt.outcome_bind, Attempt.outcome_get]
        dsimp only
        cases hentry : s.variants.get? v.name with
        | some entry =>
            rw [hentry] at howner
            obtain ⟨⟨d, v'⟩, hfound, hname⟩ := Option.map_eq_some_iff.1 howner.symm
            rw [hfound]
            dsimp only at hname ⊢
            rw [hname]
            rfl
        | none =>
            rw [hentry] at howner
            rw [Option.map_eq_none_iff.1 howner.symm]
            exact ih _

/-- The entries for variants from a place on. -/
def entriesFrom (dataName : String) (place : Nat) (vs : List Variant) :
    List (String × VariantEntry) :=
  (vs.zipIdx place).map fun (v, i) => (v.name, ⟨dataName, i⟩)

theorem outcome_indexVariants (dataName : String) (place : Nat) (vs : List Variant)
    (s : DataStore) : (indexVariants dataName place vs).outcome s =
      (.ok (), { s with variants := s.variants.insertAll (entriesFrom dataName place vs) }) := by
  induction vs generalizing place s with
  | nil => rfl
  | cons v rest ih =>
      rw [indexVariants, Attempt.outcome_bind, Attempt.outcome_modify]
      exact ih _ _

theorem keys_entriesFrom (dataName : String) (place : Nat) (vs : List Variant) :
    (entriesFrom dataName place vs).map (·.1) = vs.map (·.name) := by
  rw [entriesFrom, List.map_map]
  calc (vs.zipIdx place).map (fun x => x.1.name)
      = ((vs.zipIdx place).map Prod.fst).map (·.name) := (List.map_map ..).symm
    _ = vs.map (·.name) := by rw [List.zipIdx_map_fst]

theorem mem_entriesFrom {dataName : String} {vs : List Variant} {i : Nat} {v : Variant}
    (h : vs[i]? = some v) : (v.name, ⟨dataName, i⟩) ∈ entriesFrom dataName 0 vs :=
  List.mem_map.2 ⟨(v, i), List.mem_zipIdx_iff_getElem?.2 h, rfl⟩

theorem Holds.insert {s : DataStore} {r : DataTypes} {d : DataType} (h : s.Holds r)
    (hr : r.Coherent) (htakes : r.Takes d) :
    Holds ⟨s.types.insert d.name d, s.order ++ [d.name],
      s.variants.insertAll (entriesFrom d.name 0 d.variants)⟩ ⟨r.types ++ [d]⟩ := by
  have hr' : DataTypes.Coherent ⟨r.types ++ [d]⟩ :=
    hr.register (DataTypes.register_eq_ok_iff.2 ⟨htakes, rfl⟩)
  have hnew : ∀ d' ∈ r.types, d'.name ≠ d.name := fun d' hd' heq =>
    htakes.name (heq ▸ List.mem_map_of_mem hd')
  refine ⟨?_, fun name => ?_, fun name => ?_⟩
  · rw [h.order, DataTypes.typeNames, DataTypes.typeNames, List.map_append]
    rfl
  · rw [SortedMap.get?_insert, h.types, DataTypes.find?_append_of_new htakes.name]
  · have hdistinct : (entriesFrom d.name 0 d.variants).Pairwise (·.1 ≠ ·.1) := by
      rw [← List.pairwise_map (R := (· ≠ ·)), keys_entriesFrom]
      exact htakes.variants
    by_cases hmem : name ∈ d.variants.map (·.name)
    · obtain ⟨v, hv, rfl⟩ := List.mem_map.1 hmem
      obtain ⟨i, hi⟩ := List.mem_iff_getElem?.1 hv
      rw [lookupVariant?]
      dsimp only
      rw [SortedMap.get?_insertAll_of_mem hdistinct (mem_entriesFrom hi),
        hr'.variant?_of_mem (List.mem_append_right _ (List.mem_singleton_self d)) hv]
      simp [SortedMap.get?_insert, hi]
    · have hkept : (s.variants.insertAll (entriesFrom d.name 0 d.variants)).get? name =
          s.variants.get? name := by
        refine SortedMap.get?_insertAll_of_notMem (fun e he heq => hmem ?_) _
        rw [← keys_entriesFrom d.name 0, ← heq]
        exact List.mem_map_of_mem he
      have hsame : DataTypes.variant? ⟨r.types ++ [d]⟩ name = r.variant? name := by
        have hnone : d.variants.find? (·.name = name) = none :=
          List.find?_eq_none.2 fun v hv => by
            simpa using fun heq : v.name = name => hmem (heq ▸ List.mem_map_of_mem hv)
        simp [DataTypes.variant?, List.findSome?_append, hnone]
      have hlookup := h.variants name
      rw [lookupVariant?] at hlookup ⊢
      dsimp only
      rw [hkept, hsame]
      cases hentry : s.variants.get? name with
      | none =>
          rw [hentry] at hlookup
          exact hlookup
      | some entry =>
          rw [hentry] at hlookup
          obtain ⟨⟨owner, v⟩, hfound, hentries⟩ := Option.map_eq_some_iff.1 hlookup.symm
          have howner : owner.name = entry.typeName := congrArg Prod.fst hentries
          have hne := hnew owner (DataTypes.mem_of_variant? hfound).1
          rw [Option.map_some, SortedMap.get?_insert, if_neg fun heq => hne (howner.trans heq.symm)]
          exact hlookup

/-- A registration in the store does what it does to the data types that are kept. -/
theorem Holds.register {s : DataStore} {r : DataTypes} (h : s.Holds r) (hr : r.Coherent)
    (d : DataType) : (register d).Follows s Holds (r.register d) := by
  have hsteps : (DataStore.register d).Follows s (fun s' r' =>
      s' = ⟨s.types.insert d.name d, s.order ++ [d.name],
        s.variants.insertAll (entriesFrom d.name 0 d.variants)⟩ ∧ r' = ⟨r.types ++ [d]⟩)
      (r.register d) := by
    have hvariants := outcome_checkVariants h d.name [] d.variants
    rw [DataTypes.register]
    refine .guard Iff.rfl fun _ => ?_
    refine .ofState (.guard (by rw [SortedMap.contains, h.types]) fun _ => ?_)
    cases firstRepeated? [] d.params with
    | some param => rfl
    | none =>
        cases hcheck : r.checkVariants d.name [] d.variants with
        | error e =>
            rw [hcheck] at hvariants
            show Attempt.outcome (_ >>= _) s = _
            rw [Attempt.outcome_bind, hvariants]
        | ok done =>
            rw [hcheck] at hvariants
            refine ⟨(), _, ?_, rfl, rfl⟩
            rw [Attempt.Returns, Attempt.outcome_bind, hvariants]
            exact outcome_indexVariants ..
  refine hsteps.imp fun s' r' hregister => ?_
  rintro ⟨rfl, rfl⟩
  exact h.insert hr (DataTypes.register_eq_ok_iff.1 hregister).1

end DataStore
namespace Registry

variable {r r' : Registry}

mutual

theorem checkNames_of_data (h : r'.data = r.data) (params : List String) (e : TypeExpr) :
    r'.checkNames params e = r.checkNames params e := by
  cases e with
  | blank | nat | tag => rfl
  | named name => rw [checkNames, checkNames, h]
  | app name args => rw [checkNames, checkNames, h, checkNamesList_of_data h params args]
  | arrow domain codomain =>
      rw [checkNames, checkNames, checkNames_of_data h params domain,
        checkNames_of_data h params codomain]

theorem checkNamesList_of_data (h : r'.data = r.data) (params : List String)
    (es : List TypeExpr) : r'.checkNamesList params es = r.checkNamesList params es := by
  match es with
  | [] => rfl
  | e :: es =>
      rw [checkNamesList, checkNamesList, checkNames_of_data h params e,
        checkNamesList_of_data h params es]

end

theorem checkParams_of_data (h : r'.data = r.data) (structureName : String)
    (earlier : List String) (ps : List Binder) :
    r'.checkParams structureName earlier ps = r.checkParams structureName earlier ps := by
  induction ps generalizing earlier with
  | nil => rfl
  | cons p rest ih =>
      rw [checkParams, checkParams, h]
      simp only [ih]

theorem templateOf_of_data (h : r'.data = r.data) (structureName : String)
    (args : List TypeExpr) :
    r'.templateOf structureName args = r.templateOf structureName args := by
  rw [templateOf, templateOf, h]

end Registry

namespace Store

/-- A store keeps what a registry has: structures under their names and in their order, the
structure of each operation, and the implementations of each structure in their order. -/
structure Holds (s : Store) (r : Registry) : Prop where
  data : s.data.Holds r.data
  order : s.order = r.structureNames
  structures : ∀ name, s.structures.get? name = r.structure? name
  operations : ∀ op, s.operations.get? op = (r.structureFor? op).map (·.name)
  implementations : ∀ name, s.implementationsOf name = r.implementationsOf name

theorem holds_empty : Holds .empty .empty :=
  ⟨DataStore.holds_empty, rfl, fun _ => rfl, fun _ => rfl, fun _ => rfl⟩

theorem outcome_check {α : Type} (test : Registry → Except Fault α) (s : Store) :
    (check test).outcome s = (test s.view, s) := rfl

section

variable {s : Store} {r : Registry}

theorem Holds.registerData (h : s.Holds r) (hr : r.Coherent) (d : DataType) :
    (registerData d).Follows s Holds (r.registerData d) := by
  have hdata := h.data.register hr.data d
  rw [Registry.registerData]
  cases hregister : r.data.register d with
  | error f =>
      rw [hregister] at hdata
      show (Store.registerData d).outcome s = _
      rw [Store.registerData, Attempt.outcome_zoom, hdata]
  | ok data =>
      rw [hregister] at hdata
      obtain ⟨a, data', hreturns, hheld⟩ := hdata
      refine ⟨a, { s with data := data' }, ?_, hheld, h.order, h.structures, h.operations,
        h.implementations⟩
      rw [Attempt.Returns, Store.registerData, Attempt.outcome_zoom, hreturns]

theorem outcome_checkOperations (h : s.Holds r) (hr : r.Coherent) (interface : Structure)
    (earlier : List String) (ops : List Operation) :
    (checkOperations interface earlier ops).outcome s =
      (r.checkOperations interface earlier ops, s) := by
  induction ops generalizing earlier with
  | nil => rfl
  | cons op rest ih =>
      rw [checkOperations, Registry.checkOperations]
      dsimp only
      split
      · rfl
      · rw [Attempt.outcome_bind, Attempt.outcome_get]
        dsimp only
        rw [h.operations]
        cases r.structureFor? op.name with
        | some owner => rfl
        | none =>
            have hdata : s.view.data = r.data := h.data.view hr.data
            have hnames := Registry.checkNames_of_data hdata (interface.params.map (·.name))
              op.signature
            dsimp only [Option.map_none]
            rw [Attempt.outcome_bind, outcome_check, hnames]
            cases r.checkNames (interface.params.map (·.name)) op.signature with
            | error f => rfl
            | ok done => exact ih _

theorem outcome_indexOperations (name : String) (ops : List Operation) (s : Store) :
    (indexOperations name ops).outcome s = (.ok (), { s with
      operations := s.operations.insertAll (ops.map fun op => (op.name, name)) }) := by
  induction ops generalizing s with
  | nil => rfl
  | cons op rest ih =>
      rw [indexOperations, Attempt.outcome_bind, Attempt.outcome_modify]
      exact ih _

theorem Holds.insertStructure (h : s.Holds r) {interface : Structure}
    (htakes : r.TakesStructure interface) :
    Holds { s with
      structures := s.structures.insert interface.name interface
      order := s.order ++ [interface.name]
      operations := s.operations.insertAll (interface.operations.map fun op =>
        (op.name, interface.name)) }
      { r with structures := r.structures ++ [interface] } := by
  refine ⟨h.data, ?_, fun name => ?_, fun op => ?_, h.implementations⟩
  · rw [h.order, Registry.structureNames, Registry.structureNames, List.map_append]
    rfl
  · rw [SortedMap.get?_insert, h.structures, Registry.structure?, Registry.structure?,
      List.find?_append]
    split
    · rename_i hname
      rw [List.find?_eq_none.2 fun s' hs' => by
        simpa [← hname] using fun heq : s'.name = interface.name =>
          htakes.name (heq ▸ List.mem_map_of_mem hs')]
      simp [hname]
    · rename_i hname
      simp [hname]
  · have hfor : Registry.structureFor? { r with structures := r.structures ++ [interface] } op =
        (r.structureFor? op).or
          (if (interface.operation? op).isSome then some interface else none) := by
      rw [Registry.structureFor?, Registry.structureFor?, List.find?_append, List.find?_singleton]
    rw [hfor]
    dsimp only
    by_cases hmem : op ∈ interface.operations.map (·.name)
    · have hnone : r.structureFor? op = none := by
        rw [← Option.not_isSome_iff_eq_none, Registry.structureFor?_isSome_iff]
        exact htakes.undeclared op hmem
      have hdistinct : (interface.operations.map fun op => (op.name, interface.name)).Pairwise
          (·.1 ≠ ·.1) := List.pairwise_map.2 (List.pairwise_map.1 htakes.operations)
      obtain ⟨o, ho, rfl⟩ := List.mem_map.1 hmem
      rw [SortedMap.get?_insertAll_of_mem hdistinct (List.mem_map_of_mem ho), hnone,
        if_pos (Structure.operation?_isSome_iff.2 hmem)]
      rfl
    · rw [SortedMap.get?_insertAll_of_notMem, h.operations,
        if_neg fun h => hmem (Structure.operation?_isSome_iff.1 h), Option.or_none]
      intro e he heq
      obtain ⟨o, ho, rfl⟩ := List.mem_map.1 he
      exact hmem (heq ▸ List.mem_map_of_mem ho)

theorem Holds.registerStructure (h : s.Holds r) (hr : r.Coherent) (interface : Structure) :
    (registerStructure interface).Follows s Holds (r.registerStructure interface) := by
  have hdata : s.view.data = r.data := h.data.view hr.data
  have hparams := Registry.checkParams_of_data hdata interface.name [] interface.params
  have hsteps : (Store.registerStructure interface).Follows s (fun s' r' =>
      s' = { s with
        structures := s.structures.insert interface.name interface
        order := s.order ++ [interface.name]
        operations := s.operations.insertAll (interface.operations.map fun op =>
          (op.name, interface.name)) } ∧
      r' = { r with structures := r.structures ++ [interface] })
      (r.registerStructure interface) := by
    unfold Store.registerStructure Registry.registerStructure
    dsimp only
    refine .ofState (.guard (by rw [SortedMap.contains, h.structures]) fun _ => ?_)
    refine .look ((outcome_check ..).trans (by rw [hparams])) fun _ _ => ?_
    refine .look (outcome_checkOperations h hr ..) fun _ _ => ⟨(), _, ?_, rfl, rfl⟩
    exact outcome_indexOperations ..
  refine hsteps.imp fun s' r' hregister => ?_
  rintro ⟨rfl, rfl⟩
  exact h.insertStructure (Registry.registerStructure_eq_ok_iff.1 hregister).1

theorem Holds.insertImplementation (h : s.Holds r) (i : RegisteredImplementation) :
    Holds
      { s with
        implementations := s.implementations.insert i.interface.name
          (s.implementationsOf i.interface.name ++ [i]) }
      { r with implementations := r.implementations ++ [i] } := by
  refine ⟨h.data, h.order, h.structures, h.operations, fun name => ?_⟩
  rw [implementationsOf, SortedMap.get?_insert, Registry.implementationsOf, List.filter_append,
    ← Registry.implementationsOf, ← h.implementations name]
  split
  · rename_i hname
    simp [hname]
  · rename_i hname
    simp [hname, implementationsOf]

theorem Holds.registerImplementation (h : s.Holds r) (hr : r.Coherent) (i : Implementation) :
    (registerImplementation i).Follows s Holds (r.registerImplementation i) := by
  have hdata : s.view.data = r.data := h.data.view hr.data
  unfold Store.registerImplementation Registry.registerImplementation
  dsimp only
  refine .ofState ?_
  rw [h.structures]
  cases r.structure? i.structureName with
  | none =>
      refine .ofState ?_
      rw [h.order]
      rfl
  | some interface =>
      dsimp only
      refine .guard Iff.rfl fun _ => ?_
      refine .look ((outcome_check ..).trans (by rw [Registry.checkNamesList_of_data hdata]))
        fun _ _ => ?_
      refine .look (outcome_check ..) fun _ _ => ?_
      cases interface.operations.find? fun op => (i.body? op.name).isNone with
      | some op => rfl
      | none =>
          refine .look ((outcome_check ..).trans (by rw [Registry.templateOf_of_data hdata]))
            fun template _ => .ofState ?_
          rw [h.implementations]
          cases (r.implementationsOf interface.name).find? (·.template = template) with
          | some same => rfl
          | none =>
              refine ⟨(), _, rfl, ?_⟩
              rw [← h.implementations]
              exact h.insertImplementation ⟨interface, i, template⟩

/-- One declaration: the store changes as the registry does, or is refused likewise and stays as it
is. -/
theorem Holds.register (h : s.Holds r) (hr : r.Coherent) (d : Declaration) :
    (register d).Follows s Holds (r.register d) := by
  cases d with
  | data d => exact h.registerData hr d
  | interface interface => exact h.registerStructure hr interface
  | implementation i => exact h.registerImplementation hr i
  | definition d => exact ⟨(), s, rfl, h⟩

/-- A store after declarations have been registered one after the other, whether they were taken in
or not. -/
def after (s : Store) (ds : List Declaration) : Store :=
  ds.foldl (fun s d => ((register d).outcome s).2) s

theorem after_append (s : Store) (ds ds' : List Declaration) :
    s.after (ds ++ ds') = (s.after ds).after ds' := List.foldl_append

/-- All declarations: the store keeps what the registry of a checker has. -/
theorem Holds.after {c : Checker} (h : s.Holds c.registry) (hc : c.registry.Coherent)
    (ds : List Declaration) : (s.after ds).Holds (c.offered ds).registry := by
  induction ds generalizing s c with
  | nil => exact h
  | cons d ds ih =>
      have hstep := h.register hc d
      rw [Checker.offered_cons]
      refine ih (s := ((Store.register d).outcome s).2) ?_ (Checker.offered_coherent hc [d])
      rw [Checker.offered, List.foldl_cons, List.foldl_nil, Checker.outcome_declare]
      cases hregister : c.registry.register d with
      | ok r' =>
          rw [hregister] at hstep
          obtain ⟨a, s', hreturns, hheld⟩ := hstep
          rw [hreturns]
          exact hheld
      | error f =>
          rw [hregister] at hstep
          have houtcome : (Store.register d).outcome s = (.error f, s) := hstep
          rw [houtcome]
          exact h

/-- Of whatever declarations: the store keeps what a checker has taken in. -/
theorem holds_after (options : Checker.Options) (ds : List Declaration) :
    (empty.after ds).Holds ((Checker.empty options).offered ds).registry :=
  holds_empty.after (c := Checker.empty options) Registry.coherent_empty ds

theorem exists_holds_after (ds : List Declaration) :
    ∃ r : Registry, r.Coherent ∧ (empty.after ds).Holds r :=
  ⟨_, Checker.offered_coherent Registry.coherent_empty ds,
    holds_after ⟨false, false, 0, true, false⟩ ds⟩

end

theorem types_after {s : Store} {c : Checker} (h : s.Holds c.registry) (hc : c.registry.Coherent)
    (ds : List Declaration) {name : String} {d : DataType} (hd : s.data.types.get? name = some d) :
    (s.after ds).data.types.get? name = some d := by
  rw [h.data.types, hc.data.find?_eq_some_iff] at hd
  rw [(h.after hc ds).data.types, (Checker.offered_coherent hc ds).data.find?_eq_some_iff]
  exact hd.imp_left fun hmem => (c.types_offered ds).subset hmem

/-- The data types that are kept after any declarations, taken in or refused. The order lists each
of them once; the index leads from the variants to the places where they are declared, and nowhere
else; parameters and variants have names of their own; what is registered stays as it is; and a data
type that is refused changes nothing. -/
theorem data_store_invariant (ds : List Declaration) :
    let s := (empty.after ds).data
    (s.order.Nodup ∧ ∀ name, name ∈ s.order ↔ ∃ d, s.types.get? name = some d) ∧
    (∀ name d, s.types.get? name = some d → d.name = name ∧ d.params.Nodup ∧
      (d.variants.map (·.name)).Nodup ∧
        ∀ v ∈ d.variants, s.lookupVariant? v.name = some (name, some v)) ∧
    (∀ variant name found, s.lookupVariant? variant = some (name, found) →
      (∃ d v, s.types.get? name = some d ∧ v ∈ d.variants ∧ v.name = variant ∧ found = some v) ∧
        ∀ name' d', s.types.get? name' = some d' → variant ∈ d'.variants.map (·.name) →
          name' = name) ∧
    (∀ ds' name d, s.types.get? name = some d →
      (empty.after (ds ++ ds')).data.types.get? name = some d) ∧
    ∀ d, (s.view.Takes d → ∃ s', (DataStore.register d).Returns s () s' ∧
        s'.order = s.order ++ [d.name] ∧
          ∀ name, s'.types.get? name = if d.name = name then some d else s.types.get? name) ∧
      (¬s.view.Takes d → ∃ f, (DataStore.register d).outcome s = (.error f, s)) := by
  intro s
  obtain ⟨r, hr, hholds⟩ := exists_holds_after ds
  have h : s.Holds r.data := hholds.data
  have htypes : ∀ name d, s.types.get? name = some d ↔ d ∈ r.data.types ∧ d.name = name := by
    intro name d
    rw [h.types, hr.data.find?_eq_some_iff]
  have hlookup : ∀ d ∈ r.data.types, ∀ v ∈ d.variants,
      s.lookupVariant? v.name = some (d.name, some v) := by
    intro d hd v hv
    rw [h.variants, hr.data.variant?_of_mem hd hv]
    rfl
  refine ⟨⟨h.order ▸ hr.data.types, fun name => ?_⟩, fun name d hd => ?_,
    fun variant name found hfound => ?_, fun ds' name d hd => ?_, fun d => ?_⟩
  · rw [h.order, ← DataTypes.find?_isSome_iff, ← h.types, Option.isSome_iff_exists]
  · obtain ⟨hmem, rfl⟩ := (htypes name d).1 hd
    exact ⟨rfl, hr.data.params d hmem, hr.data.variantNames hmem, hlookup d hmem⟩
  · rw [h.variants] at hfound
    obtain ⟨⟨d, v⟩, hvariant, heq⟩ := Option.map_eq_some_iff.1 hfound
    cases heq
    obtain ⟨hd, hv, hname⟩ := DataTypes.mem_of_variant? hvariant
    refine ⟨⟨d, v, (htypes _ d).2 ⟨hd, rfl⟩, hv, hname, rfl⟩, fun name' d' hd' hmem => ?_⟩
    obtain ⟨hmem', rfl⟩ := (htypes name' d').1 hd'
    rw [hr.data.owner_unique hmem' hd hmem (hname ▸ List.mem_map_of_mem hv)]
  · rw [after_append]
    exact types_after (c := (Checker.empty ⟨false, false, 0, true, false⟩).offered ds)
      (holds_after _ ds) (Checker.offered_coherent Registry.coherent_empty ds) ds' hd
  · have hstep := h.register hr.data d
    rw [h.view hr.data]
    constructor
    · intro htakes
      rw [DataTypes.register_eq_ok_iff.2 ⟨htakes, rfl⟩] at hstep
      obtain ⟨_, s', hreturns, hheld⟩ := hstep
      refine ⟨s', hreturns, ?_, fun name => ?_⟩
      · rw [hheld.order, h.order, DataTypes.typeNames, List.map_append]
        rfl
      · rw [hheld.types, h.types, DataTypes.find?_append_of_new htakes.name]
    · intro hrefused
      cases hregister : r.data.register d with
      | ok r' => exact absurd (DataTypes.register_eq_ok_iff.1 hregister).1 hrefused
      | error f =>
          rw [hregister] at hstep
          exact ⟨f, hstep⟩

end Store

end Formulary
