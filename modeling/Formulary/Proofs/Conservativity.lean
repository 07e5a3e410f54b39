import Formulary.Proofs.History
import Formulary.Proofs.Usefulness

namespace Formulary

namespace TypeExpr

mutual

/-- The names that are written in a type, apart from those that are bound. -/
def written (bound : List String) : TypeExpr → List String
  | .named name => if name ∈ bound then [] else [name]
  | .app name args => name :: writtenList bound args
  | .arrow domain codomain => domain.written bound ++ codomain.written bound
  | .blank | .nat _ | .tag _ => []

def writtenList (bound : List String) : List TypeExpr → List String
  | [] => []
  | e :: es => e.written bound ++ writtenList bound es

end

mutual

theorem meansSame_of_written {r r' : DataTypes} {bound : List String} {e : TypeExpr}
    (h : ∀ name ∈ e.written bound, r.MeansSame r' name) : e.MeansSame r r' bound := by
  cases e with
  | named name =>
      intro hfree
      refine h name ?_
      rw [written, if_neg hfree]
      exact List.mem_singleton_self name
  | app name args =>
      obtain ⟨hname, hargs⟩ := List.forall_mem_cons.1 h
      exact ⟨hname, meansSameList_of_written hargs⟩
  | arrow domain codomain =>
      obtain ⟨hdomain, hcodomain⟩ := List.forall_mem_append.1 h
      exact ⟨meansSame_of_written hdomain, meansSame_of_written hcodomain⟩
  | blank | nat | tag => trivial

theorem meansSameList_of_written {r r' : DataTypes} {bound : List String} {es : List TypeExpr}
    (h : ∀ name ∈ writtenList bound es, r.MeansSame r' name) : MeansSameList r r' bound es := by
  cases es with
  | nil => trivial
  | cons e es =>
      obtain ⟨hfirst, hrest⟩ := List.forall_mem_append.1 h
      exact ⟨meansSame_of_written hfirst, meansSameList_of_written hrest⟩

end

end TypeExpr

namespace DataTypes

variable {r r' : DataTypes}

theorem applyName_of_meansSame {name : String} (h : r.MeansSame r' name) {args : List Ty} {t : Ty}
    (ht : r.applyName name args = .ok t) : r'.applyName name args = .ok t := by
  unfold applyName at ht ⊢
  rw [h.find?, h.metaVariant?]
  split at ht
  · exact ht
  · split at ht
    · exact ht
    · cases ht

mutual

theorem resolve_of_meansSame {scope : Scope} {free : Bool} {e : TypeExpr} {t : Ty} {s s' : NamedVars}
    (h : e.MeansSame r r' (scope.map (·.1)))
    (hrun : Attempt.Returns (r.resolve scope free e) s t s') :
    Attempt.Returns (r'.resolve scope free e) s t s' := by
  cases e with
  | blank => cases hrun
  | named name =>
      rw [resolve] at hrun ⊢
      cases hlookup : scope.lookup name with
      | some bound =>
          rw [hlookup] at hrun
          cases bound with
          | some u => exact hrun
          | none => exact hrun
      | none =>
          have hfree : name ∉ scope.map (·.1) := fun hmem => by
            obtain ⟨b, hb, rfl⟩ := List.mem_map.1 hmem
            simpa using List.lookup_eq_none_iff.1 hlookup b hb
          rw [hlookup] at hrun
          dsimp only at hrun ⊢
          rw [(h hfree).lookupName?]
          cases hname : r.lookupName? name with
          | some u =>
              rw [hname] at hrun
              exact hrun
          | none =>
              rw [hname] at hrun
              dsimp only at hrun ⊢
              split at hrun
              · rename_i hparam
                rw [if_pos hparam]
                exact hrun
              · cases hrun
  | app name args =>
      rw [resolve] at hrun ⊢
      obtain ⟨ts, s₁, hargs, hname⟩ := Attempt.returns_bind_iff.1 hrun
      refine Attempt.returns_bind_iff.2 ⟨ts, s₁, resolveList_of_meansSame h.2 hargs, ?_⟩
      rw [Attempt.Returns, Attempt.outcome_liftExcept, Prod.mk.injEq] at hname ⊢
      exact ⟨applyName_of_meansSame h.1 hname.1, hname.2⟩
  | arrow domain codomain =>
      rw [resolve] at hrun ⊢
      obtain ⟨a, s₁, ha, hrun⟩ := Attempt.returns_bind_iff.1 hrun
      obtain ⟨b, s₂, hb, hrun⟩ := Attempt.returns_bind_iff.1 hrun
      exact Attempt.returns_bind_iff.2 ⟨a, s₁, resolve_of_meansSame h.1 ha,
        Attempt.returns_bind_iff.2 ⟨b, s₂, resolve_of_meansSame h.2 hb, hrun⟩⟩
  | nat value => exact hrun
  | tag value => exact hrun

theorem resolveList_of_meansSame {scope : Scope} {free : Bool} {es : List TypeExpr} {ts : List Ty}
    {s s' : NamedVars} (h : TypeExpr.MeansSameList r r' (scope.map (·.1)) es)
    (hrun : Attempt.Returns (r.resolveList scope free es) s ts s') :
    Attempt.Returns (r'.resolveList scope free es) s ts s' := by
  match es with
  | [] => exact hrun
  | e :: es =>
      rw [resolveList] at hrun ⊢
      obtain ⟨t, s₁, ht, hrun⟩ := Attempt.returns_bind_iff.1 hrun
      obtain ⟨us, s₂, hus, hrun⟩ := Attempt.returns_bind_iff.1 hrun
      exact Attempt.returns_bind_iff.2 ⟨t, s₁, resolve_of_meansSame h.1 ht,
        Attempt.returns_bind_iff.2 ⟨us, s₂, resolveList_of_meansSame h.2 hus, hrun⟩⟩

end

theorem resolveClosed_of_meansSame {scope : Scope} {e : TypeExpr} {t : Ty}
    (h : e.MeansSame r r' (scope.map (·.1))) (ht : r.resolveClosed scope e = .ok t) :
    r'.resolveClosed scope e = .ok t := by
  have hrun : Attempt.Returns (r.resolve scope false e) ⟨.startingAt 0, []⟩ t
      (Attempt.outcome (r.resolve scope false e) ⟨.startingAt 0, []⟩).2 := Prod.ext ht rfl
  exact congrArg Prod.fst (resolve_of_meansSame h hrun)

end DataTypes

/-- The names that a data type writes for types, apart from its parameters. -/
def DataType.written (d : DataType) : List String :=
  d.variants.flatMap fun v => v.fields.flatMap fun f =>
    f.type.written (if d.name = Ty.metaName then [] else d.params)

/-- The names that a structure writes for types, apart from its parameters. -/
def Structure.written (s : Structure) : List String :=
  s.params.flatMap (fun p => p.type.toList.flatMap (TypeExpr.written [])) ++
    s.operations.flatMap fun op => op.signature.written (s.params.map (·.name))

/-- The names that are written for types in what is declared. -/
def Registry.written (r : Registry) : List String :=
  r.data.types.flatMap DataType.written ++ r.structures.flatMap Structure.written ++
    r.implementations.flatMap fun i => TypeExpr.writtenList [] i.decl.args

namespace Declaration

/-- The names that a declaration introduces for use in expressions: variants, operations and
definitions. -/
def valueNames : Declaration → List String
  | .data d => d.variants.map (·.name)
  | .interface s => s.operations.map (·.name)
  | .definition d => [d.name]
  | .implementation _ => []

/-- The names that a declaration introduces for types: data types, and the variants of the type of
types. -/
def typeNames : Declaration → List String
  | .data d => if d.name = Ty.metaName then d.name :: d.variants.map (·.name) else [d.name]
  | .interface _ | .implementation _ | .definition _ => []

end Declaration

namespace Registry

/-- Every implementation belongs to a structure that is declared, and has an argument for each of
its parameters. -/
def Founded (r : Registry) : Prop :=
  ∀ i ∈ r.implementations, r.structure? i.interface.name = some i.interface ∧
    i.decl.args.length = i.interface.params.length

theorem structure?_of_append {r r' : Registry} {more : List Structure}
    (h : r'.structures = r.structures ++ more) {name : String} {s : Structure}
    (hs : r.structure? name = some s) : r'.structure? name = some s := by
  rw [structure?, h, List.find?_append, show r.structures.find? _ = some s from hs, Option.some_or]

theorem registerImplementation_founded {r : Registry} (hr : r.Founded) (i : Implementation) :
    Ends Founded (fun _ => True) (r.registerImplementation i) := by
  unfold registerImplementation
  split
  · rename_i s hs
    refine Ends.ite (fun _ => trivial) fun hlength => ?_
    refine ends_behind_check _ fun _ => ends_behind_check _ fun _ => ?_
    split
    · trivial
    · refine ends_behind_check _ fun template => ?_
      split
      · trivial
      · intro j hj
        rcases List.mem_append.1 hj with hj | hj
        · exact hr j hj
        · obtain rfl := List.mem_singleton.1 hj
          have hname : s.name = i.structureName := by simpa using List.find?_some hs
          exact ⟨hname ▸ hs, not_not.1 hlength⟩
  · trivial

theorem register_founded {r : Registry} (hr : r.Founded) (d : Declaration) :
    Ends Founded (fun _ => True) (r.register d) := by
  cases d with
  | data d => exact ends_behind_check _ fun _ => hr
  | interface s =>
      refine Ends.ite (fun _ => trivial) fun _ => ?_
      refine ends_behind_check _ fun _ => ends_behind_check _ fun _ i hi => ?_
      exact (hr i hi).imp_left (structure?_of_append rfl)
  | implementation i => exact registerImplementation_founded hr i
  | definition d => exact hr

theorem founded_of_registerAll {r r' : Registry} {decls : List Declaration}
    (h : r.registerAll decls = .ok r') (hr : r.Founded) : r'.Founded := by
  refine registerAll_keeps h hr fun d _ r₁ r₂ hfounded hregister => ?_
  have hends := register_founded hfounded d
  rw [hregister] at hends
  exact hends

variable {r r' : Registry} {decls : List Declaration}

theorem Gains.variant?_eq (h : r.Gains r' decls) {name : String}
    (hnew : ∀ d ∈ decls, name ∉ d.valueNames) : r'.data.variant? name = r.data.variant? name := by
  have hmore : DataTypes.variant? ⟨dataTypesOf decls⟩ name = none := by
    refine Option.eq_none_iff_forall_ne_some.2 fun found hfound => ?_
    obtain ⟨hd, hv, hname⟩ := DataTypes.mem_of_variant? hfound
    exact hnew _ (mem_of_mem_dataTypesOf hd) (hname ▸ List.mem_map_of_mem hv)
  rw [DataTypes.variant?_of_append h.types, hmore, Option.or_none]

theorem Gains.operation?_eq (h : r.Gains r' decls) {name : String}
    (hnew : ∀ d ∈ decls, name ∉ d.valueNames) : r'.operation? name = r.operation? name := by
  have hmore : ((decls.filterMap Declaration.structure?).findSome? fun s =>
      (s.operation? name).map (s, ·)) = none := by
    refine List.findSome?_eq_none_iff.2 fun s hs => ?_
    obtain ⟨decl, hdecl, heq⟩ := List.mem_filterMap.1 hs
    cases decl with
    | interface s' =>
        cases heq
        refine Option.map_eq_none_iff.2 (List.find?_eq_none.2 fun op hop hname => ?_)
        exact hnew _ hdecl (of_decide_eq_true hname ▸ List.mem_map_of_mem hop)
    | data | implementation | definition => cases heq
  rw [operation?, h.structures, List.findSome?_append, hmore, Option.or_none]
  rfl

theorem Gains.meansSame (h : r.Gains r' decls) {name : String}
    (hnew : ∀ d ∈ decls, name ∉ d.typeNames) : r.data.MeansSame r'.data name where
  find? := by
    have hmore : DataTypes.find? ⟨dataTypesOf decls⟩ name = none := by
      refine List.find?_eq_none.2 fun d hd hname => ?_
      refine hnew _ (mem_of_mem_dataTypesOf hd) ?_
      rw [Declaration.typeNames, ← of_decide_eq_true hname]
      split
      · exact List.mem_cons_self ..
      · exact List.mem_singleton_self _
    rw [DataTypes.find?_of_append h.types, hmore, Option.or_none]
  metaVariant? := by
    rw [DataTypes.metaVariant?, DataTypes.metaVariant?, DataTypes.variant?_of_append h.types]
    cases r.data.variant? name with
    | some found => rfl
    | none =>
        rw [Option.none_or]
        cases hmore : DataTypes.variant? ⟨dataTypesOf decls⟩ name with
        | none => rfl
        | some found =>
            obtain ⟨hd, hv, hname⟩ := DataTypes.mem_of_variant? hmore
            refine if_neg fun hmeta => hnew _ (mem_of_mem_dataTypesOf hd) ?_
            rw [Declaration.typeNames, if_pos hmeta, ← hname]
            exact List.mem_cons_of_mem _ (List.mem_map_of_mem hv)

theorem Gains.variant?_of_isSome (h : r.Gains r' decls) {name : String}
    (hsome : (r.data.variant? name).isSome = true) :
    r'.data.variant? name = r.data.variant? name := by
  obtain ⟨found, hfound⟩ := Option.isSome_iff_exists.1 hsome
  rw [DataTypes.variant?_of_append h.types, hfound, Option.some_or]

/-- What builds the values of a type is the same behind a load, if no variant takes the name of the
scalar type or of the type of types: these count as constructors of their values. -/
theorem Gains.constructorsOf (h : r.Gains r' decls)
    (hbuiltin : ∀ d ∈ decls, "Scalar" ∉ d.valueNames ∧ Ty.metaName ∉ d.valueNames)
    {name constructor : String} (hprovides : r.data.Provides name constructor) :
    Pattern.constructorsOf r'.data (.data name constructor []) =
        Pattern.constructorsOf r.data (.data name constructor []) ∧
      ∀ c ∈ Pattern.constructorsOf r.data (.data name constructor []),
        r'.data.variant? c = r.data.variant? c := by
  simp only [Pattern.constructorsOf]
  by_cases hmeta : name = Ty.metaName
  · rw [if_pos hmeta, if_pos hmeta]
    refine ⟨rfl, fun c hc => ?_⟩
    rw [List.mem_singleton.1 hc]
    rcases hprovides with ⟨heq, -⟩ | ⟨-, rfl | hvariant⟩
    · rw [← heq, hmeta]
      exact h.variant?_eq fun d hd => (hbuiltin d hd).2
    · exact h.variant?_eq fun d hd => (hbuiltin d hd).1
    · refine h.variant?_of_isSome ?_
      unfold DataTypes.metaVariant? at hvariant
      cases hfound : r.data.variant? constructor with
      | some found => rfl
      | none =>
          rw [hfound] at hvariant
          cases hvariant
  · rw [if_neg hmeta, if_neg hmeta]
    have hfind := (hprovides.resolve_right fun hscalar => hmeta hscalar.1).2
    obtain ⟨d, hd⟩ := Option.isSome_iff_exists.1 hfind
    rw [DataTypes.variantsOf, DataTypes.variantsOf, DataTypes.find?_of_append h.types, hd,
      Option.some_or]
    refine ⟨rfl, fun c hc => h.variant?_of_isSome ?_⟩
    obtain ⟨v, hv, hname⟩ := List.mem_map.1 hc
    refine List.findSome?_isSome_iff.2 ⟨d, List.mem_of_find?_eq_some hd, ?_⟩
    rw [Option.isSome_map]
    exact List.find?_isSome.2 ⟨v, hv, by simpa using hname⟩

theorem mem_of_operation? {name : String} {s : Structure} {op : Operation}
    (h : r.operation? name = some (s, op)) : s ∈ r.structures ∧ op ∈ s.operations := by
  obtain ⟨s', hs', hfind⟩ := List.exists_of_findSome?_eq_some h
  obtain ⟨op', hop', heq⟩ := Option.map_eq_some_iff.1 hfind
  cases heq
  exact ⟨hs', List.mem_of_find?_eq_some hop'⟩

theorem mem_written_of_signature {s : Structure} (hs : s ∈ r.structures) {op : Operation}
    (hop : op ∈ s.operations) {name : String}
    (hname : name ∈ op.signature.written (s.params.map (·.name))) : name ∈ r.written := by
  refine List.mem_append_left _ (List.mem_append_right _ (List.mem_flatMap.2 ⟨s, hs, ?_⟩))
  exact List.mem_append_right _ (List.mem_flatMap.2 ⟨op, hop, hname⟩)

/-- A load that introduces no name that is written for a type leaves the meaning of every earlier
declaration as it was. -/
theorem Gains.agrees (h : r.Gains r' decls) (ids : Equiv.Perm Int) (ahead : Int) (hr : r.Founded)
    (hwritten : ∀ d ∈ decls, ∀ name ∈ d.typeNames, name ∉ r.written)
    (hbuiltin : ∀ d ∈ decls, "Scalar" ∉ d.valueNames ∧ Ty.metaName ∉ d.valueNames) :
    r.Agrees ⟨ids, r.data.Provides, ahead⟩ r' := by
  have hsame : ∀ name ∈ r.written, r.data.MeansSame r'.data name := fun name hname =>
    h.meansSame fun d hd hnew => hwritten d hd name hnew hname
  have hself := agrees_provides ids ahead r
  refine ⟨⟨?_, hself.data.scalar, hself.data.instances, hself.data.variants,
    fun _ _ => h.constructorsOf hbuiltin⟩, ?_, fun _ _ => structure?_of_append h.structures, ?_, ?_⟩
  · intro name d v hvariant f hf
    obtain ⟨hd, hv, -⟩ := DataTypes.mem_of_variant? hvariant
    refine TypeExpr.meansSame_of_written fun other hother => hsame other ?_
    refine List.mem_append_left _ (List.mem_append_left _ (List.mem_flatMap.2 ⟨d, hd, ?_⟩))
    exact List.mem_flatMap.2 ⟨v, hv, List.mem_flatMap.2 ⟨f, hf, hother⟩⟩
  · intro name s op hop
    obtain ⟨hs, hop⟩ := mem_of_operation? hop
    refine ⟨fun p hp kind hkind => TypeExpr.meansSame_of_written fun other hother => hsame other ?_,
      TypeExpr.meansSame_of_written fun other hother =>
        hsame other (mem_written_of_signature hs hop hother)⟩
    refine List.mem_append_left _ (List.mem_append_right _ (List.mem_flatMap.2 ⟨s, hs, ?_⟩))
    refine List.mem_append_left _ (List.mem_flatMap.2 ⟨p, hp, ?_⟩)
    rw [hkind]
    simpa using hother
  · intro name
    obtain ⟨new, hnew, -⟩ := h.implementations
    rw [implementationsOf, implementationsOf, hnew, List.filter_append]
    exact List.prefix_append _ _
  · intro name s operation op hs hop i hi
    obtain ⟨himplementation, hname⟩ := List.mem_filter.1 hi
    obtain ⟨hinterface, hlength⟩ := hr i himplementation
    rw [of_decide_eq_true hname, hs] at hinterface
    cases hinterface
    refine ⟨TypeExpr.meansSameList_of_written fun other hother => hsame other ?_, ?_⟩
    · exact List.mem_append_right _ (List.mem_flatMap.2 ⟨i, himplementation, hother⟩)
    · rw [hlength, List.take_of_length_le (by rw [List.length_map])]
      refine TypeExpr.meansSame_of_written fun other hother => hsame other ?_
      exact mem_written_of_signature (List.mem_of_find?_eq_some hs)
        (List.mem_of_find?_eq_some hop) hother

end Registry

theorem Attempt.returns_adapt {σ ε ε' α : Type} {f : ε → ε'} {m : Attempt σ ε α} {s s' : σ} {a : α} :
    Attempt.Returns (ExceptT.adapt f m : Attempt σ ε' α) s a s' ↔ m.Returns s a s' := by
  rw [Returns, Returns, outcome_adapt]
  cases m.outcome s with
  | mk r s₁ =>
      cases r with
      | ok b =>
          constructor <;> intro h <;> cases h <;> rfl
      | error e =>
          constructor <;> intro h <;> cases h

namespace Inference

theorem fst_of_bindGroup {env inner : TypeEnv} {group : List Definition}
    {bound : List (Definition × Ty)} {s s' : State}
    (h : (bindGroup env group).Returns s (bound, inner) s') : bound.map (·.1) = group := by
  induction group generalizing env s bound with
  | nil =>
      cases h
      rfl
  | cons d rest ih =>
      obtain ⟨var, s₁, -, h⟩ := Attempt.returns_bind_iff.1 h
      obtain ⟨⟨bound', inner'⟩, s₂, hrest, h⟩ := Attempt.returns_bind_iff.1 h
      cases h
      rw [List.map_cons, ih hrest]

theorem get?_of_inferGroup {c : Context} {env env' : TypeEnv} {group : List Definition}
    {s s' : State} (h : (inferGroup c env group).Returns s env' s') {name : String}
    (hname : ∀ d ∈ group, d.name ≠ name) : env'.get? name = env.get? name := by
  unfold inferGroup at h
  obtain ⟨_, s₁, -, h⟩ := Attempt.returns_bind_iff.1 h
  obtain ⟨⟨bound, inner⟩, s₂, hbound, h⟩ := Attempt.returns_bind_iff.1 h
  obtain ⟨_, s₃, -, h⟩ := Attempt.returns_bind_iff.1 h
  obtain ⟨_, s₄, -, h⟩ := Attempt.returns_bind_iff.1 h
  obtain ⟨_, s₅, -, h⟩ := Attempt.returns_bind_iff.1 h
  cases h
  have hgroup := fst_of_bindGroup (Attempt.returns_adapt.1 hbound)
  rw [TypeEnv.extend, SortedMap.get?_insertAll_of_notMem]
  intro b hb
  obtain ⟨bound₁, hd, rfl⟩ := List.mem_map.1 hb
  exact hname _ (hgroup ▸ List.mem_map_of_mem hd)

theorem get?_of_inferGroups {c : Context} {env env' : TypeEnv} {groups : List (List Definition)}
    {s : State} (h : ((inferGroups c env groups).run s).1 = (env', .ok ())) {name : String}
    (hname : ∀ group ∈ groups, ∀ d ∈ group, d.name ≠ name) : env'.get? name = env.get? name := by
  induction groups generalizing env s with
  | nil =>
      cases h
      rfl
  | cons group rest ih =>
      obtain ⟨hfirst, hrest⟩ := List.forall_mem_cons.1 hname
      rw [run_inferGroups_cons] at h
      cases hgroup : (inferGroup c env group).outcome s with
      | mk r s₁ =>
          rw [hgroup] at h
          cases r with
          | ok inner => rw [ih h hrest, get?_of_inferGroup hgroup hfirst]
          | error e => cases h

theorem get?_of_inferDefinitions {c : Context} {env env' : TypeEnv} {defs : List Definition}
    {s : State} (h : ((inferDefinitions c env defs).run s).1 = (env', .ok ())) {name : String}
    (hname : ∀ d ∈ defs, d.name ≠ name) : env'.get? name = env.get? name := by
  refine get?_of_inferGroups h fun group hgroup d hd => hname d ?_
  obtain ⟨indices, -, rfl⟩ := List.mem_map.1 hgroup
  obtain ⟨i, -, hi⟩ := List.mem_filterMap.1 hd
  exact List.mem_of_getElem? hi

end Inference

namespace Checker

theorem Reachable.founded {c : Checker} (h : c.Reachable) : c.registry.Founded := by
  obtain ⟨ds, -, hds⟩ := h.registerAll
  exact Registry.founded_of_registerAll hds fun i hi => absurd hi List.not_mem_nil

theorem returns_load {decls : List Declaration} {c c' : Checker}
    (h : (load decls).Returns c () c') :
    c'.options = c.options ∧ c.registry.Gains c'.registry (Declaration.registered decls) ∧
      ∀ name, (∀ d ∈ decls, name ∉ d.valueNames) → c'.env.get? name = c.env.get? name := by
  obtain ⟨e, c₁, ds, hload, -, -⟩ | ⟨c₁, env, c₂, inference, hgains, hinfer, hload⟩ :=
    load_outcome decls c
  · cases hload.symm.trans h
  · cases hload.symm.trans h
    obtain ⟨hrun, hgains'⟩ := returns_inferDefinitions hinfer
    have hregistry : c₁.registry = c₂.registry := Except.ok.inj hgains'.registry
    refine ⟨hgains'.options.trans hgains.options, ?_, fun name hname => ?_⟩
    · show c.registry.Gains c₂.registry _
      rw [← hregistry]
      exact Registry.gains_of_registerAll hgains.registry
    · show env.get? name = c.env.get? name
      rw [Inference.get?_of_inferDefinitions hrun, hgains.env]
      intro d hd heq
      obtain ⟨decl, hdecl, hdefinition⟩ := List.mem_filterMap.1 hd
      cases decl with
      | definition d' =>
          cases hdefinition
          exact hname _ hdecl (heq ▸ List.mem_singleton_self _)
      | data | interface | implementation => cases hdefinition

/-- An expression that a checker accepts is accepted with the same type, and with the same warnings,
behind every load that succeeds, introduces nothing that the expression names, and introduces no
type of a name that an earlier declaration has written for a type. The names of the scalar type and
of the type of types count as named. -/
theorem check_of_load {c c' c₁ : Checker} (hc : c.Reachable) {decls : List Declaration}
    (hload : (load decls).Returns c () c') {e : Expr} {v : Verdict}
    (hcheck : (check e).Returns c v c₁)
    (hnames : ∀ d ∈ decls, ∀ name ∈ d.valueNames, name ∉ "Scalar" :: Ty.metaName :: e.names)
    (htypes : ∀ d ∈ decls, ∀ name ∈ d.typeNames, name ∉ c.registry.written) :
    ∃ v', ((check e).outcome c').1 = .ok v' ∧ v'.type.render = v.type.render ∧
      v'.warnings.map Fault.shown = v.warnings.map Fault.shown := by
  obtain ⟨hoptions, hgains, henv⟩ := returns_load hload
  have hnew : ∀ name ∈ "Scalar" :: Ty.metaName :: e.names, ∀ d ∈ decls, name ∉ d.valueNames :=
    fun name hname d hd hvalue => hnames d hd name hvalue hname
  obtain ⟨ids, ahead, hsupply⟩ :=
    exists_showsSupply c.registry.data.Provides c.inference.supply c'.inference.supply
  have hregistry : c.registry.Agrees ⟨ids, c.registry.data.Provides, ahead⟩ c'.registry := by
    refine hgains.agrees ids ahead hc.founded (fun d hd => htypes d (mem_of_mem_registered hd))
      fun d hd => ⟨?_, ?_⟩
    · exact hnew _ (by simp) d (mem_of_mem_registered hd)
    · exact hnew _ (by simp) d (mem_of_mem_registered hd)
  have hagree : c.context.Agrees ⟨ids, c.registry.data.Provides, ahead⟩ c'.context :=
    ⟨hregistry, congrArg (·.strict) hoptions, congrArg (·.lenient) hoptions,
      congrArg (·.trace) hoptions, rfl⟩
  have hblank : e ≠ .blank := by
    rintro rfl
    cases hcheck
  refine check_ok_of_agrees (Inference.inferExpr_agrees hagree hblank (fun name hname => ?_) hsupply)
    (congrArg Prod.fst hcheck)
  have hfresh := hnew name (by simp [hname])
  have hknown : Inference.ShowsEnv ⟨ids, c.registry.data.Provides, ahead⟩ c.env c.env :=
    Inference.showsEnv_of_isOver hc.schematic
  refine ⟨?_, hgains.variant?_eq fun d hd => hfresh d (mem_of_mem_registered hd),
    hgains.operation?_eq fun d hd => hfresh d (mem_of_mem_registered hd)⟩
  rw [henv name hfresh]
  exact hknown name

/-- A checker with a data type of boxes, which hold scalars. -/
def boxing : Checker :=
  (create ⟨false, false, 0, true, false⟩).after [.load "boxes" "data Box = Mk(Real)"]

/-- A box. -/
def box : Expr := .operation "Mk" [.const "1"]

/-- A data type with one value. -/
def single (name : String) : List Declaration := [.data ⟨name, [], [⟨"Only", []⟩]⟩]

def boxSource : Source :=
  ⟨"data Box = Mk(Real)", [.data ⟨"Box", [], [⟨"Mk", [⟨none, .named "Real"⟩]⟩]⟩], by cbv⟩

theorem boxing_eq :
    boxing = ((load boxSource.decls).outcome (create ⟨false, false, 0, true, false⟩)).2 :=
  state_load_request boxSource.reads ..

def boxPasses : boxing.Passing :=
  ⟨box, ⟨.data "Box" "Box" [], []⟩, by rw [boxing_eq]; cbv⟩

set_option maxRecDepth 4000 in
theorem check_of_load_other :
    told ((check box).outcome boxing).1 = .ok ("Box", []) ∧
      ((load (single "Unit")).outcome boxing).1 = .ok () ∧
      ∃ v', ((check box).outcome ((load (single "Unit")).outcome boxing).2).1 = .ok v' ∧
        v'.type.render = "Box" := by
  have hload : ((load (single "Unit")).outcome boxing).1 = .ok () := by
    rw [boxing_eq]
    rfl
  have hwritten : boxing.registry.written = ["Real"] := by
    rw [boxing_eq]
    rfl
  have hreachable : boxing.Reachable := ⟨_, _, rfl⟩
  obtain ⟨v', hv', htype, -⟩ := check_of_load hreachable
    (Prod.ext hload rfl : (load (single "Unit")).Returns boxing () _)
    boxPasses.returns (by decide) (by rw [hwritten]; decide)
  exact ⟨congrArg told boxPasses.passes.1, hload, v', hv', htype⟩

set_option maxRecDepth 4000 in
/-- A load that names its data type as the scalars are named in the declaration of boxes. -/
theorem check_lost_by_load :
    told ((check box).outcome boxing).1 = .ok ("Box", []) ∧
      ((load (single "Real")).outcome boxing).1 = .ok () ∧
      (∀ d ∈ single "Real", ∀ name ∈ d.valueNames, name ∉ box.names) ∧
      told ((check box).outcome ((load (single "Real")).outcome boxing).2).1 =
        .error (some .unificationFailure) := by
  refine ⟨congrArg told boxPasses.passes.1, by rw [boxing_eq]; rfl, by decide, ?_⟩
  rw [boxing_eq]
  cbv

end Checker

end Formulary
