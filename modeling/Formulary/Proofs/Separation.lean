import Formulary.Proofs.Registering

namespace Formulary.Checker

theorem checkNames_eq_ok_iff {c : Checker} {earlier : List String} {defs : List Definition} :
    c.checkNames earlier defs = .ok () ↔ (defs.map (·.name)).Nodup ∧
      ∀ name ∈ defs.map (·.name), c.isTaken name = false ∧ name ∉ earlier := by
  induction defs generalizing earlier with
  | nil => simp [checkNames]
  | cons d rest ih =>
      rw [checkNames, List.map_cons, List.nodup_cons, List.forall_mem_cons]
      split
      · rename_i htaken
        simp only [Bool.or_eq_true, decide_eq_true_eq] at htaken
        grind
      · rename_i htaken
        simp only [Bool.or_eq_true, decide_eq_true_eq, not_or, Bool.not_eq_true] at htaken
        rw [ih]
        grind

theorem isTaken_eq_false_iff {c : Checker} {name : String} :
    c.isTaken name = false ↔ name ∉ c.definitionNames ∧ c.registry.data.variant? name = none ∧
      c.registry.operation? name = none := by
  simp [isTaken, definitionNames, and_assoc]

theorem returns_loadDefinitions {defs : List Definition} {c c' : Checker}
    (h : (loadDefinitions defs).Returns c () c') : c.checkNames [] defs = .ok () ∧
      ∃ env c₁ inference, (inferDefinitions defs).Returns c env c₁ ∧
        c' = { c₁ with env, definitions := c₁.definitions ++ defs, inference } := by
  obtain ⟨e, c₁, herror, -⟩ | ⟨env, c₁, inference, hinfer, hok⟩ := loadDefinitions_outcome defs c
  · cases herror.symm.trans h
  · obtain ⟨_, _, hget, hrest⟩ := Attempt.returns_bind_iff.1 h
    cases hget
    obtain ⟨_, _, hnames, -⟩ := Attempt.returns_bind_iff.1 hrest
    cases hcheck : c.checkNames [] defs with
    | ok => exact ⟨rfl, env, c₁, inference, hinfer, congrArg Prod.snd (h.symm.trans hok)⟩
    | error f =>
        rw [hcheck] at hnames
        cases hnames

/-- No definition has the name of a variant or of an operation. -/
def Separated (c : Checker) : Prop :=
  ∀ name ∈ c.definitionNames,
    c.registry.data.variant? name = none ∧ c.registry.operation? name = none

/-- Registering keeps definitions separate when it declares no variant and no operation that has the
name of a definition. -/
theorem Separated.gains {c c' : Checker} (hc : c.Separated) {ds : List Declaration}
    (h : c.Gains c' ds) (hnew : ∀ d ∈ ds, ∀ name ∈ d.valueNames, name ∉ c.definitionNames) :
    c'.Separated := by
  intro name hname
  rw [definitionNames, h.definitions] at hname
  have hgains := Registry.gains_of_registerAll h.registry
  have hother : ∀ d ∈ ds, name ∉ d.valueNames := fun d hd hvalue => hnew d hd name hvalue hname
  rw [hgains.variant?_eq hother, hgains.operation?_eq hother]
  exact hc name hname

/-- Definitions are refused the names of variants and operations. -/
theorem Separated.loadDefinitions {c : Checker} (hc : c.Separated) (defs : List Definition) :
    ((loadDefinitions defs).outcome c).2.Separated := by
  cases hrun : (Checker.loadDefinitions defs).outcome c with
  | mk r c' =>
      cases r with
      | error e =>
          obtain ⟨e', c₁, herror, hgains⟩ | ⟨_, _, _, -, hok⟩ := loadDefinitions_outcome defs c
          · cases herror.symm.trans hrun
            exact hc.gains hgains nofun
          · cases hok.symm.trans hrun
      | ok _ =>
          obtain ⟨hnames, env, c₁, inference, hinfer, rfl⟩ := returns_loadDefinitions hrun
          have hgains := (inferDefinitions_registers defs).ofOk hinfer
          have hregistry : c.registry = c₁.registry := Except.ok.inj hgains.registry
          intro name hname
          rw [definitionNames, hgains.definitions, List.map_append] at hname
          show c₁.registry.data.variant? name = none ∧ c₁.registry.operation? name = none
          rw [← hregistry]
          rcases List.mem_append.1 hname with hname | hname
          · exact hc name hname
          · exact (isTaken_eq_false_iff.1 ((checkNames_eq_ok_iff.1 hnames).2 name hname).1).2

/-- A load declares no variant and no operation that has the name of a definition. -/
def Spares (c : Checker) (decls : List Declaration) : Prop :=
  ∀ d ∈ Declaration.registered decls, ∀ name ∈ d.valueNames, name ∉ c.definitionNames

theorem Separated.load {c : Checker} (hc : c.Separated) {decls : List Declaration}
    (hspares : c.Spares decls) : ((load decls).outcome c).2.Separated := by
  rw [load_eq, Attempt.outcome_bind]
  cases hfirst : (loadInterfaces decls).outcome c with
  | mk r c₁ =>
      cases r with
      | error e =>
          obtain ⟨ds, hds, hgains⟩ := (loadInterfaces_registers decls).ofError hfirst
          exact hc.gains hgains fun d hd => hspares d (hds.subset hd)
      | ok _ =>
          have hgains := (loadInterfaces_registers decls).ofOk hfirst
          exact (hc.gains hgains hspares).loadDefinitions _

/-- A checker behind some loads, one after the other, whether they succeed or not. -/
def loaded (c : Checker) : List (List Declaration) → Checker
  | [] => c
  | decls :: rest => loaded ((load decls).outcome c).2 rest

/-- Loads none of which declares a variant or an operation that has the name of a definition loaded
before it. -/
def SparesAll (c : Checker) : List (List Declaration) → Prop
  | [] => True
  | decls :: rest => c.Spares decls ∧ SparesAll ((load decls).outcome c).2 rest

theorem Separated.loaded {c : Checker} (hc : c.Separated) {loads : List (List Declaration)}
    (h : c.SparesAll loads) : (c.loaded loads).Separated := by
  induction loads generalizing c with
  | nil => exact hc
  | cons decls rest ih => exact ih (hc.load h.1) h.2

theorem definitions_load (decls : List Declaration) (c : Checker) :
    ((load decls).outcome c).2.definitions = c.definitions ∨
      ((load decls).outcome c).2.definitions = c.definitions ++ definitionsOf decls := by
  obtain ⟨e, c', ds, hload, -, hgains⟩ | ⟨c₁, env, c₂, inference, hgains, hinfer, hload⟩ :=
    load_outcome decls c
  · rw [hload]
    exact .inl hgains.definitions
  · rw [hload]
    have hall := hgains.trans ((inferDefinitions_registers _).ofOk hinfer)
    exact .inr (congrArg (· ++ definitionsOf decls) hall.definitions)

/-- The standard library defines nothing. -/
theorem create_definitions (options : Options) : (create options).definitions = [] := by
  have hload : ∀ decls c, definitionsOf decls = [] → c.definitions = [] →
      ((load decls).outcome c).2.definitions = [] := by
    intro decls c hdecls hc
    rcases definitions_load decls c with h | h
    · rw [h, hc]
    · rw [h, hc, hdecls, List.nil_append]
  rw [create_eq]
  split
  · rfl
  · rw [loadLibrary, Attempt.outcome_bind]
    have hfirst := hload StandardLibrary.dataTypes (empty options) rfl rfl
    generalize (load StandardLibrary.dataTypes).outcome (empty options) = first at hfirst ⊢
    obtain ⟨r, c₁⟩ := first
    cases r with
    | ok _ => exact hload StandardLibrary.structures c₁ rfl hfirst
    | error e => exact hfirst

theorem create_separated (options : Options) : (create options).Separated := by
  intro name hname
  rw [definitionNames, create_definitions] at hname
  exact absurd hname List.not_mem_nil

/-- Behind any loads none of which declares a variant or an operation that has the name of a
definition loaded before it, no definition has the name of a variant or of an operation. Loads may
fail, and may hold declarations of all kinds in any order. -/
theorem separated_of_sparesAll (options : Options) (loads : List (List Declaration))
    (h : (create options).SparesAll loads) :
    ∀ name ∈ ((create options).loaded loads).definitionNames,
      ((create options).loaded loads).registry.data.variant? name = none ∧
        ((create options).loaded loads).registry.operation? name = none :=
  (create_separated options).loaded h

/-- A definition of the identity. -/
def identity : List Declaration := [.definition ⟨"F", [⟨"x", none⟩], none, .object "x"⟩]

/-- A data type with one variant. -/
def wrapper (variant : String) : List Declaration :=
  [.data ⟨"T", [], [⟨variant, [⟨none, .named "Real"⟩]⟩]⟩]

set_option maxRecDepth 4000 in
theorem separated_of_sparesAll_identity :
    bare.SparesAll [identity, wrapper "Mk"] ∧
      (bare.loaded [identity, wrapper "Mk"]).definitionNames = ["F"] ∧
      ((bare.loaded [identity, wrapper "Mk"]).registry.data.variant? "Mk").isSome = true ∧
      (bare.loaded [identity, wrapper "Mk"]).registry.data.variant? "F" = none := by
  have hfirst : ((load identity).outcome bare).2.definitionNames = ["F"] := by
    cbv
  have hnames : (bare.loaded [identity, wrapper "Mk"]).definitionNames = ["F"] := by
    cbv
  have hvariant :
      ((bare.loaded [identity, wrapper "Mk"]).registry.data.variant? "Mk").isSome = true := by
    cbv
  have hspares : bare.SparesAll [identity, wrapper "Mk"] := by
    refine ⟨fun d hd => absurd hd List.not_mem_nil, ?_, trivial⟩
    rw [Spares, hfirst]
    decide
  refine ⟨hspares, hnames, hvariant, ?_⟩
  exact (separated_of_sparesAll ⟨false, false, 0, true, false⟩ _ hspares "F"
    (hnames ▸ List.mem_singleton_self "F")).1

set_option maxRecDepth 4000 in
/-- A variant may take the name of a definition that was loaded before. -/
theorem variant_named_as_definition :
    (bare.loaded [identity, wrapper "F"]).definitionNames = ["F"] ∧
      ((bare.loaded [identity, wrapper "F"]).registry.data.variant? "F").isSome = true :=
  ⟨by cbv, by cbv⟩

end Formulary.Checker
