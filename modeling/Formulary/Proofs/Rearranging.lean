import Formulary.Proofs.Splitting
import Formulary.Proofs.Suggestions

namespace Formulary

theorem sortNames_perm {names names' : List String} (h : names.Perm names') :
    sortNames names = sortNames names' := by
  have hperm : (sortNames names).Perm (sortNames names') :=
    (List.mergeSort_perm ..).trans (h.trans (List.mergeSort_perm ..).symm)
  exact hperm.eq_of_pairwise (fun _ _ _ _ => String.le_antisymm)
    (List.pairwise_mergeSort' (· ≤ ·) names) (List.pairwise_mergeSort' (· ≤ ·) names')

namespace DataTypes

variable {r r' : DataTypes} {ds ds' : List DataType}

/-- Two registries hold the same data types, perhaps in another order, and find the same by a name. -/
structure Rearranges (r r' : DataTypes) : Prop where
  types : r.types.Perm r'.types
  find?_eq : ∀ name, r.find? name = r'.find? name
  variant?_eq : ∀ name, r.variant? name = r'.variant? name

namespace Rearranges

theorem metaVariant?_eq (h : r.Rearranges r') (name : String) :
    r.metaVariant? name = r'.metaVariant? name := by
  rw [metaVariant?, metaVariant?, h.variant?_eq]

theorem lookupName?_eq (h : r.Rearranges r') (name : String) :
    r.lookupName? name = r'.lookupName? name := by
  rw [lookupName?, lookupName?, h.find?_eq, h.metaVariant?_eq]

theorem unknownType_eq (h : r.Rearranges r') (name : String) :
    r.unknownType name = r'.unknownType name := by
  have htypes : r.typeNames.Perm r'.typeNames := h.types.map _
  have hvariants : r.variantNames = r'.variantNames := sortNames_perm (h.types.flatMap_right _)
  rw [unknownType, unknownType, hvariants,
    Text.suggest_congr name fun _ => (htypes.append_right _).mem_iff]

theorem applyName_eq (h : r.Rearranges r') (name : String) (args : List Ty) :
    r.applyName name args = r'.applyName name args := by
  rw [applyName, applyName, h.find?_eq, h.metaVariant?_eq, h.unknownType_eq]

mutual

theorem resolve_eq (h : r.Rearranges r') (scope : Scope) (free : Bool) :
    (e : TypeExpr) → r.resolve scope free e = r'.resolve scope free e
  | .blank | .nat _ | .tag _ => by rw [resolve, resolve]
  | .named name => by rw [resolve, resolve, h.lookupName?_eq, h.unknownType_eq]
  | .app name args => by
      rw [resolve, resolve, h.resolveList_eq scope free args]
      simp only [h.applyName_eq]
  | .arrow domain codomain => by
      rw [resolve, resolve, h.resolve_eq scope free domain, h.resolve_eq scope free codomain]

theorem resolveList_eq (h : r.Rearranges r') (scope : Scope) (free : Bool) :
    (es : List TypeExpr) → r.resolveList scope free es = r'.resolveList scope free es
  | [] => by rw [resolveList, resolveList]
  | e :: es => by
      rw [resolveList, resolveList, h.resolve_eq scope free e, h.resolveList_eq scope free es]

end

theorem checkFields_eq (h : r.Rearranges r') (name : String) :
    r.checkFields name = r'.checkFields name := by
  rw [checkFields, checkFields, h.find?_eq, h.unknownType_eq]
  simp only [resolveClosed, h.resolve_eq]

end Rearranges

theorem Coherent.perm (h : Coherent ⟨ds⟩) (hperm : ds.Perm ds') : Coherent ⟨ds'⟩ where
  types := (hperm.map _).nodup_iff.1 h.types
  variants := (hperm.flatMap_right _).nodup_iff.1 h.variants
  params := fun d hd => h.params d (hperm.mem_iff.2 hd)

theorem Coherent.rearranges (h : Coherent ⟨ds⟩) (hperm : ds.Perm ds') :
    Rearranges ⟨ds⟩ ⟨ds'⟩ where
  types := hperm
  find?_eq := fun name => Option.ext fun d => by
    rw [h.find?_eq_some_iff, (h.perm hperm).find?_eq_some_iff, hperm.mem_iff]
  variant?_eq := fun name => Option.ext fun (d, v) => by
    rw [h.variant?_eq_some_iff, (h.perm hperm).variant?_eq_some_iff, hperm.mem_iff]

theorem Rearranges.append (h : Rearranges ⟨ds⟩ ⟨ds'⟩) :
    Rearranges ⟨r.types ++ ds⟩ ⟨r.types ++ ds'⟩ where
  types := h.types.append_left _
  find?_eq := fun name => by rw [find?_of_append rfl, find?_of_append rfl, h.find?_eq]
  variant?_eq := fun name => by rw [variant?_of_append rfl, variant?_of_append rfl, h.variant?_eq]

/-- What data types need for being taken in one after the other. Their order is not asked for. -/
structure TakesAll (r : DataTypes) (ds : List DataType) : Prop where
  coherent : Coherent ⟨ds⟩
  takes : ∀ d ∈ ds, r.Takes d

theorem TakesAll.perm (h : r.TakesAll ds) (hperm : ds.Perm ds') : r.TakesAll ds' where
  coherent := h.coherent.perm hperm
  takes := fun d hd => h.takes d (hperm.mem_iff.2 hd)

theorem takesAll_nil (r : DataTypes) : r.TakesAll [] := ⟨coherent_empty, by simp⟩

theorem takesAll_cons_iff {d : DataType} :
    r.TakesAll (d :: ds) ↔ r.Takes d ∧ TakesAll ⟨r.types ++ [d]⟩ ds := by
  have hnames : typeNames ⟨r.types ++ [d]⟩ = r.typeNames ++ [d.name] := by simp [typeNames]
  have hconstructors : constructorNames ⟨r.types ++ [d]⟩ =
      r.constructorNames ++ d.variants.map (·.name) := by simp [constructorNames]
  constructor
  · rintro ⟨hcoherent, htakes⟩
    have hd := htakes d (List.mem_cons_self ..)
    have hnodup := List.nodup_cons.1 hcoherent.types
    have hvariants : (d.variants.map (·.name) ++ constructorNames ⟨ds⟩).Nodup :=
      hcoherent.variants
    obtain ⟨-, hrest, hdisjoint⟩ := List.nodup_append.1 hvariants
    refine ⟨hd, ⟨hnodup.2, hrest, fun d' hd' => hcoherent.params d' (List.mem_cons_of_mem _ hd')⟩,
      fun d' hd' => ?_⟩
    have hd'' := htakes d' (List.mem_cons_of_mem _ hd')
    refine { hd'' with name := ?_, constructors := fun name hname => ?_ }
    · rw [hnames, List.mem_append, List.mem_singleton, not_or]
      exact ⟨hd''.name, fun heq => hnodup.1 (List.mem_map.2 ⟨d', hd', heq⟩)⟩
    · rw [hconstructors, List.mem_append, not_or]
      refine ⟨hd''.constructors name hname, fun hmem => ?_⟩
      exact hdisjoint name hmem name (List.mem_flatMap.2 ⟨d', hd', hname⟩) rfl
  · rintro ⟨hd, hds⟩
    have hnew : ∀ d' ∈ ds, d'.name ≠ d.name := fun d' hd' heq => (hds.takes d' hd').name (by
      simp [hnames, heq])
    have hfree : ∀ d' ∈ ds, ∀ name ∈ d'.variants.map (·.name),
        name ∉ r.constructorNames ∧ name ∉ d.variants.map (·.name) := fun d' hd' name hname => by
      have hnot := (hds.takes d' hd').constructors name hname
      rwa [hconstructors, List.mem_append, not_or] at hnot
    refine ⟨⟨?_, ?_, ?_⟩, ?_⟩
    · refine List.nodup_cons.2 ⟨fun hmem => ?_, hds.coherent.types⟩
      obtain ⟨d', hd', heq⟩ := List.mem_map.1 hmem
      exact hnew d' hd' heq
    · refine List.nodup_append.2 ⟨hd.variants, hds.coherent.variants, ?_⟩
      rintro name hname _ hname' rfl
      obtain ⟨d', hd', hmem⟩ := List.mem_flatMap.1 hname'
      exact (hfree d' hd' name hmem).2 hname
    · exact List.forall_mem_cons.2 ⟨hd.params, hds.coherent.params⟩
    · refine List.forall_mem_cons.2 ⟨hd, fun d' hd' => ?_⟩
      refine { hds.takes d' hd' with
        name := fun hmem => (hds.takes d' hd').name ?_
        constructors := fun name hname => (hfree d' hd' name hname).1 }
      rw [hnames]
      exact List.mem_append_left _ hmem

end DataTypes

namespace Checker

variable {c c' : Checker} {ds ds' : List DataType}

/-- A checker with more data types, and with another state of inference. -/
def withData (c : Checker) (ds : List DataType) (inference : Inference.State) : Checker :=
  { c with registry := { c.registry with data := ⟨c.registry.data.types ++ ds⟩ }, inference }

theorem outcome_log (line : String) (c : Checker) :
    ∃ inference, (log line).outcome c = (.ok (), { c with inference }) := ⟨_, rfl⟩

theorem outcome_loadData (d : DataType) (c : Checker) :
    (c.registry.data.Takes d ∧
      ∃ inference, (loadData d).outcome c = (.ok (), c.withData [d] inference)) ∨
    ¬ c.registry.data.Takes d ∧ ∃ e c', (loadData d).outcome c = (.error e, c') := by
  by_cases htakes : c.registry.data.Takes d
  · have hregister := DataTypes.register_eq_ok_iff.2 ⟨htakes, rfl⟩
    have hchange : c.registry.registerData d =
        .ok { c.registry with data := ⟨c.registry.data.types ++ [d]⟩ } := by
      rw [Registry.registerData, hregister]
      rfl
    obtain ⟨inference, hlog⟩ := outcome_log
      ("data " ++ d.name ++ ": " ++ toString d.variants.length ++ " variants")
      (c.withData [d] c.inference)
    refine .inl ⟨htakes, inference, ?_⟩
    rw [loadData, Attempt.outcome_bind, outcome_declare_of_ok hchange]
    exact hlog
  · have hrefused : ∀ r, c.registry.registerData d ≠ .ok r := by
      intro r hr
      obtain ⟨data, hdata, -⟩ := Except.bind_eq_ok_iff.1 hr
      exact htakes (DataTypes.register_eq_ok_iff.1 hdata).1
    obtain ⟨f, hdeclare⟩ : ∃ f, (declare (·.registerData d)).outcome c = (.error f, c) :=
      outcome_declare_of_refused hrefused
    refine .inr ⟨htakes, f, c, ?_⟩
    rw [loadData, Attempt.outcome_bind, hdeclare]

theorem returns_forM_loadData (h : (ds.forM loadData).Returns c () c') :
    c.registry.data.TakesAll ds ∧ ∃ inference, c' = c.withData ds inference := by
  induction ds generalizing c with
  | nil =>
      cases h
      exact ⟨DataTypes.takesAll_nil _, c'.inference, by simp [withData]⟩
  | cons d ds ih =>
      obtain ⟨_, c₁, hfirst, hrest⟩ := Attempt.returns_bind_iff.1 h
      obtain ⟨htakes, inference₁, hok⟩ | ⟨-, e, c₂, herror⟩ := outcome_loadData d c
      · cases hok.symm.trans hfirst
        obtain ⟨hall, inference, rfl⟩ := ih hrest
        exact ⟨DataTypes.takesAll_cons_iff.2 ⟨htakes, hall⟩, inference, by simp [withData]⟩
      · cases herror.symm.trans hfirst

theorem exists_returns_forM_loadData (h : c.registry.data.TakesAll ds) :
    ∃ inference, (ds.forM loadData).Returns c () (c.withData ds inference) := by
  induction ds generalizing c with
  | nil => exact ⟨c.inference, by simp [withData, Attempt.Returns]⟩
  | cons d ds ih =>
      obtain ⟨htakes, hall⟩ := DataTypes.takesAll_cons_iff.1 h
      obtain ⟨-, inference₁, hok⟩ | ⟨hnot, -⟩ := outcome_loadData d c
      · obtain ⟨inference, hrest⟩ := ih (c := c.withData [d] inference₁) hall
        refine ⟨inference, Attempt.returns_bind_iff.2 ⟨(), _, hok, ?_⟩⟩
        simpa [withData] using hrest
      · exact absurd htakes hnot

theorem returns_checkData_iff {d : DataType} : (checkData d).Returns c () c' ↔
    c.registry.data.checkFields d.name = .ok () ∧ c' = c := by
  unfold checkData Attempt.Returns Attempt.within
  rw [Attempt.outcome_bind, Attempt.outcome_get]
  dsimp only
  rw [Attempt.outcome_adapt]
  cases c.registry.data.checkFields d.name with
  | error f =>
      constructor
      · intro h
        cases h
      · rintro ⟨h, -⟩
        cases h
  | ok _ =>
      constructor
      · intro h
        cases h
        exact ⟨rfl, rfl⟩
      · rintro ⟨-, rfl⟩
        rfl

theorem returns_forM_checkData_iff : (ds.forM checkData).Returns c () c' ↔
    (∀ d ∈ ds, c.registry.data.checkFields d.name = .ok ()) ∧ c' = c := by
  induction ds with
  | nil =>
      constructor
      · intro h
        cases h
        exact ⟨by simp, rfl⟩
      · rintro ⟨-, rfl⟩
        rfl
  | cons d ds ih =>
      rw [List.forM, Attempt.returns_bind_iff, List.forall_mem_cons]
      constructor
      · rintro ⟨_, c₁, hfirst, hrest⟩
        obtain ⟨hcheck, rfl⟩ := returns_checkData_iff.1 hfirst
        obtain ⟨hchecks, rfl⟩ := ih.1 hrest
        exact ⟨⟨hcheck, hchecks⟩, rfl⟩
      · rintro ⟨⟨hcheck, hchecks⟩, rfl⟩
        exact ⟨(), _, returns_checkData_iff.2 ⟨hcheck, rfl⟩, ih.2 ⟨hchecks, rfl⟩⟩

theorem forM_loadInterface_data (ds : List DataType) :
    (ds.map .data).forM loadInterface = (pure () : Run Unit) := by
  induction ds with
  | nil => rfl
  | cons d ds ih => rw [List.map_cons, List.forM, loadInterface, pure_bind, ih]

theorem load_data (ds : List DataType) : load (ds.map .data) = (do
    ds.forM loadData
    ds.forM checkData
    loadDefinitions []) := by
  have hdata : dataTypesOf (ds.map .data) = ds := by
    simp [dataTypesOf, Declaration.dataType?, List.filterMap_map, Function.comp_def]
  have hdefinitions : definitionsOf (ds.map .data) = [] := by
    simp [definitionsOf, Declaration.definition?, List.filterMap_map, Function.comp_def]
  rw [load, hdata, hdefinitions, forM_loadInterface_data]
  simp only [pure_bind]

theorem returns_loadDefinitions_nil (c : Checker) :
    ∃ inference, (loadDefinitions []).Returns c () { c with inference } := by
  have hnames : c.checkNames [] [] = .ok () := rfl
  have hnone : (Inference.inferDefinitions c.context c.env []).run c.inference =
      ((c.env, .ok ()), c.inference) := rfl
  obtain ⟨inference, -, h⟩ := exists_returns_loadDefinitions hnames hnone
  rw [List.append_nil] at h
  exact ⟨inference, h⟩

theorem returns_load_data (h : (load (ds.map .data)).Returns c () c') :
    c.registry.data.TakesAll ds ∧
      (∀ d ∈ ds, DataTypes.checkFields ⟨c.registry.data.types ++ ds⟩ d.name = .ok ()) ∧
      ∃ inference, c' = c.withData ds inference := by
  rw [load_data] at h
  obtain ⟨_, c₁, hfirst, hrest⟩ := Attempt.returns_bind_iff.1 h
  obtain ⟨hall, inference₁, rfl⟩ := returns_forM_loadData hfirst
  obtain ⟨_, c₂, hchecks, hdefinitions⟩ := Attempt.returns_bind_iff.1 hrest
  obtain ⟨hfields, rfl⟩ := returns_forM_checkData_iff.1 hchecks
  obtain ⟨inference, hnil⟩ := returns_loadDefinitions_nil (c.withData ds inference₁)
  cases hnil.symm.trans hdefinitions
  exact ⟨hall, hfields, inference, rfl⟩

theorem exists_returns_load_data (hall : c.registry.data.TakesAll ds)
    (hfields : ∀ d ∈ ds, DataTypes.checkFields ⟨c.registry.data.types ++ ds⟩ d.name = .ok ()) :
    ∃ c', (load (ds.map .data)).Returns c () c' := by
  rw [load_data]
  obtain ⟨inference₁, hfirst⟩ := exists_returns_forM_loadData hall
  obtain ⟨inference, hnil⟩ := returns_loadDefinitions_nil (c.withData ds inference₁)
  exact ⟨_, Attempt.returns_bind_iff.2 ⟨(), _, hfirst, Attempt.returns_bind_iff.2
    ⟨(), _, returns_forM_checkData_iff.2 ⟨hfields, rfl⟩, hnil⟩⟩⟩

theorem exists_returns_load_data_of_perm (hperm : ds.Perm ds')
    (h : ∃ c', (load (ds.map .data)).Returns c () c') :
    ∃ c', (load (ds'.map .data)).Returns c () c' := by
  obtain ⟨c', hload⟩ := h
  obtain ⟨hall, hfields, -⟩ := returns_load_data hload
  have hrearranges := (hall.coherent.rearranges hperm).append (r := c.registry.data)
  refine exists_returns_load_data (hall.perm hperm) fun d hd => ?_
  rw [← hrearranges.checkFields_eq]
  exact hfields d (hperm.mem_iff.2 hd)

/-- Data types load in any order. From every state of a checker, two loads of the same data types in
different order both succeed or both fail; and where they succeed, the same data types and the same
variants are found by their names, and every type expression stands for the same or is refused with
the same message. -/
theorem load_data_perm (c : Checker) {ds ds' : List DataType} (hperm : ds.Perm ds') :
    ((∃ c₁, (load (ds.map .data)).Returns c () c₁) ↔
      ∃ c₂, (load (ds'.map .data)).Returns c () c₂) ∧
    ∀ c₁ c₂ : Checker, (load (ds.map .data)).Returns c () c₁ →
      (load (ds'.map .data)).Returns c () c₂ →
        c₁.registry.data.types.Perm c₂.registry.data.types ∧
        (∀ name, c₁.registry.data.find? name = c₂.registry.data.find? name) ∧
        (∀ name, c₁.registry.data.variant? name = c₂.registry.data.variant? name) ∧
        ∀ scope free e,
          c₁.registry.data.resolve scope free e = c₂.registry.data.resolve scope free e := by
  refine ⟨⟨exists_returns_load_data_of_perm hperm,
    exists_returns_load_data_of_perm hperm.symm⟩, fun c₁ c₂ h₁ h₂ => ?_⟩
  obtain ⟨hall, -, inference₁, rfl⟩ := returns_load_data h₁
  obtain ⟨-, -, inference₂, rfl⟩ := returns_load_data h₂
  have hrearranges := (hall.coherent.rearranges hperm).append (r := c.registry.data)
  exact ⟨hrearranges.types, hrearranges.find?_eq, hrearranges.variant?_eq, hrearranges.resolve_eq⟩

/-- A list and the trees that it is a list of. -/
def forest : List DataType :=
  [⟨"Forest", [], [⟨"Empty", []⟩, ⟨"Plant", [⟨none, .named "Tree"⟩, ⟨none, .named "Forest"⟩]⟩]⟩,
    ⟨"Tree", [], [⟨"Grow", [⟨some "branches", .named "Forest"⟩]⟩]⟩]

theorem load_data_perm_forest :
    forest.Perm forest.reverse ∧ (∃ c₁, (load (forest.map .data)).Returns bare () c₁) ∧
      ∃ c₂, (load (forest.reverse.map .data)).Returns bare () c₂ := by
  have hperm : forest.Perm forest.reverse := forest.reverse_perm.symm
  have hload : ((load (forest.map .data)).outcome bare).1 = .ok () := by cbv
  have hreturns : ∃ c₁, (load (forest.map .data)).Returns bare () c₁ := ⟨_, Prod.ext hload rfl⟩
  exact ⟨hperm, hreturns, (load_data_perm bare hperm).1.1 hreturns⟩

end Checker

end Formulary
