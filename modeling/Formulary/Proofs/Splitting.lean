import Formulary.Proofs.Searching
import Formulary.Proofs.Separation

namespace Formulary

namespace Inference

variable {allowed : String → String → Prop} {c : Context}

/-- The groups of definitions, in the order in which they get their types. -/
def groupsOf (defs : List Definition) : List (List Definition) :=
  (Definition.groups defs).map fun group => group.filterMap (defs[·]?)

theorem groupsOf_append {ds ds' : List Definition}
    (h : ∀ d ∈ ds, ∀ name ∈ d.referred, name ∉ ds'.map (·.name)) :
    groupsOf (ds ++ ds') = groupsOf ds ++ groupsOf ds' := by
  rw [groupsOf, Definition.groups_append h, List.map_append, List.map_map]
  refine congrArg₂ _ (List.map_congr_left fun group hgroup => ?_)
    (List.map_congr_left fun group _ => ?_)
  · refine List.filterMap_congr fun i hi => ?_
    exact List.getElem?_append_left (Definition.lt_of_mem_groups hgroup hi)
  · rw [Function.comp_apply, List.filterMap_map]
    refine List.filterMap_congr fun i _ => ?_
    rw [Function.comp_apply, List.getElem?_append_right (Nat.le_add_right _ _),
      Nat.add_sub_cancel_left]

theorem run_inferGroups_append {env env' : TypeEnv} {groups groups' : List (List Definition)}
    {s : State} (h : ((inferGroups c env (groups ++ groups')).run s).1 = (env', .ok ())) :
    ∃ env₁ s₁, (inferGroups c env groups).run s = ((env₁, .ok ()), s₁) ∧
      ((inferGroups c env₁ groups').run s₁).1 = (env', .ok ()) := by
  induction groups generalizing env s with
  | nil => exact ⟨env, s, rfl, h⟩
  | cons group rest ih =>
      rw [List.cons_append, run_inferGroups_cons] at h
      rw [run_inferGroups_cons]
      cases hgroup : (inferGroup c env group).outcome s with
      | mk r s₁ =>
          rw [hgroup] at h
          cases r with
          | ok inner => exact ih h
          | error e => cases h

theorem run_inferGroups_of_supply (hagree : c.Agrees (.self allowed) c) {env env' : TypeEnv}
    (henv : env.IsOver allowed) {groups : List (List Definition)} {s s' : State}
    (hs : (Mirror.self allowed).ShowsSupply s.supply s'.supply)
    (h : ((inferGroups c env groups).run s).1 = (env', .ok ())) :
    ((inferGroups c env groups).run s').1 = (env', .ok ()) := by
  induction groups generalizing env s s' with
  | nil => exact h
  | cons group rest ih =>
      rw [run_inferGroups_cons] at h ⊢
      have hmirrors := inferGroup_mirrors hagree henv group s s' hs
      revert hmirrors h
      rcases (inferGroup c env group).outcome s with ⟨e | a, s₁⟩ <;>
        rcases (inferGroup c env group).outcome s' with ⟨e' | b, s₁'⟩
      · exact fun h => nomatch h
      · exact fun h => nomatch h
      · exact fun _ => False.elim
      · rintro h ⟨⟨rfl, hover⟩, hs₁⟩
        exact ih hover hs₁ h

end Inference

namespace Checker

theorem forM_loadInterface_definitions (ds : List Definition) :
    (ds.map .definition).forM loadInterface = (pure () : Run Unit) := by
  induction ds with
  | nil => rfl
  | cons d ds ih => rw [List.map_cons, List.forM, loadInterface, pure_bind, ih]

theorem load_definitions (ds : List Definition) :
    load (ds.map .definition) = loadDefinitions ds := by
  have hdata : dataTypesOf (ds.map .definition) = [] := by
    simp [dataTypesOf, Declaration.dataType?, List.filterMap_map, Function.comp_def]
  have hdefinitions : definitionsOf (ds.map .definition) = ds := by
    simp [definitionsOf, Declaration.definition?, List.filterMap_map, Function.comp_def]
  rw [load, hdata, hdefinitions, forM_loadInterface_definitions]
  rfl

theorem returns_inferDefinitions_iff {defs : List Definition} {c c' : Checker} {env : TypeEnv} :
    (inferDefinitions defs).Returns c env c' ↔ ∃ s, c' = { c with inference := s } ∧
      (Inference.inferDefinitions c.context c.env defs).run c.inference = ((env, .ok ()), s) := by
  unfold inferDefinitions Attempt.Returns
  rw [Attempt.outcome_bind, Attempt.outcome_get]
  dsimp only
  rw [Attempt.outcome_bind, inferring, Attempt.outcome_zoom, Attempt.outcome_liftState]
  generalize (Inference.inferDefinitions c.context c.env defs).run c.inference = result
  obtain ⟨⟨env', outcome⟩, s⟩ := result
  cases outcome with
  | error e =>
      constructor
      · intro h
        cases h
      · rintro ⟨s', -, h⟩
        cases h
  | ok _ =>
      constructor
      · intro h
        cases h
        exact ⟨s, rfl, rfl⟩
      · rintro ⟨s', rfl, h⟩
        cases h
        rfl

theorem exists_returns_loadDefinitions {defs : List Definition} {c : Checker} {env : TypeEnv}
    {s : Inference.State} (hnames : c.checkNames [] defs = .ok ())
    (h : (Inference.inferDefinitions c.context c.env defs).run c.inference = ((env, .ok ()), s)) :
    ∃ inference, inference.supply = s.supply ∧ (loadDefinitions defs).Returns c ()
      { c with env, definitions := c.definitions ++ defs, inference } := by
  obtain ⟨inference, hsupply, hlogs⟩ := outcome_logTypes env defs
    { c with inference := s, env, definitions := c.definitions ++ defs }
  refine ⟨inference, hsupply, ?_⟩
  refine Attempt.returns_bind_iff.2 ⟨c, c, rfl, Attempt.returns_bind_iff.2 ⟨(), c, ?_, ?_⟩⟩
  · rw [hnames]
    rfl
  · exact Attempt.returns_bind_iff.2 ⟨env, _, returns_inferDefinitions_iff.2 ⟨s, rfl, h⟩,
      Attempt.returns_bind_iff.2 ⟨(), _, rfl, hlogs⟩⟩

theorem checkNames_append {c : Checker} {ds ds' : List Definition}
    (h : c.checkNames [] (ds ++ ds') = .ok ()) : c.checkNames [] ds = .ok () ∧
      ∀ env inference, Checker.checkNames
        { c with env, definitions := c.definitions ++ ds, inference } [] ds' = .ok () := by
  obtain ⟨hnodup, hfree⟩ := checkNames_eq_ok_iff.1 h
  rw [List.map_append] at hnodup hfree
  obtain ⟨hnodup₁, hnodup₂, hdisjoint⟩ := List.nodup_append.1 hnodup
  refine ⟨checkNames_eq_ok_iff.2 ⟨hnodup₁, fun name hname =>
    hfree name (List.mem_append_left _ hname)⟩, fun env inference => checkNames_eq_ok_iff.2
      ⟨hnodup₂, fun name hname => ⟨isTaken_eq_false_iff.2 ⟨?_, ?_⟩, List.not_mem_nil⟩⟩⟩
  · have htaken := isTaken_eq_false_iff.1 (hfree name (List.mem_append_right _ hname)).1
    rw [definitionNames, List.map_append]
    intro hmem
    rcases List.mem_append.1 hmem with hmem | hmem
    · exact htaken.1 hmem
    · exact hdisjoint name hmem name hname rfl
  · exact (isTaken_eq_false_iff.1 (hfree name (List.mem_append_right _ hname)).1).2

/-- Definitions that are taken in together are taken in when they are loaded in two parts, if the
first part refers to nothing in the second. The definitions are the same in the same order, with the
same types. -/
theorem load_definitions_in_parts {c c' : Checker} (hc : c.Reachable) {ds ds' : List Definition}
    (hrefers : ∀ d ∈ ds, ∀ name ∈ d.body.freeNames, name ∉ d.paramNames →
      name ∉ ds'.map (·.name))
    (hload : (load ((ds ++ ds').map .definition)).Returns c () c') :
    ∃ c₁ c₂, (load (ds.map .definition)).Returns c () c₁ ∧
      (load (ds'.map .definition)).Returns c₁ () c₂ ∧
      c₂.registry = c'.registry ∧ c₂.definitions = c'.definitions ∧
      ∀ name, c₂.typeOf? name = c'.typeOf? name := by
  rw [load_definitions] at hload
  simp only [load_definitions]
  obtain ⟨hnames, env, _, inference, hinfer, rfl⟩ := returns_loadDefinitions hload
  obtain ⟨s, rfl, hrun⟩ := returns_inferDefinitions_iff.1 hinfer
  obtain ⟨hnames₁, hnames₂⟩ := checkNames_append hnames
  have hreferred : ∀ d ∈ ds, ∀ name ∈ d.referred, name ∉ ds'.map (·.name) := fun d hd name hname =>
    hrefers d hd name (List.mem_filter.1 hname).1 (of_decide_eq_true (List.mem_filter.1 hname).2)
  have hgroups : ((Inference.inferGroups c.context c.env
      (Inference.groupsOf (ds ++ ds'))).run c.inference).1 = (env, .ok ()) := congrArg Prod.fst hrun
  rw [Inference.groupsOf_append hreferred] at hgroups
  obtain ⟨env₁, s₁, hfirst, hsecond⟩ := Inference.run_inferGroups_append hgroups
  obtain ⟨inference₁, hsupply, hload₁⟩ := exists_returns_loadDefinitions hnames₁ hfirst
  have hagree : c.context.Agrees (.self c.registry.data.Provides) c.context :=
    ⟨Registry.agrees_provides _ _ _, rfl, rfl, rfl, rfl⟩
  have hover := Inference.inferGroups_isOver hagree hc.schematic (congrArg Prod.fst hfirst)
  have hsupplied : (Mirror.self c.registry.data.Provides).ShowsSupply s₁.supply inference₁.supply :=
    hsupply ▸ Mirror.showsSupply_self _
  have hsecond₁ := Inference.run_inferGroups_of_supply hagree hover hsupplied hsecond
  obtain ⟨inference₂, -, hload₂⟩ := exists_returns_loadDefinitions
    (hnames₂ env₁ inference₁) (Prod.ext hsecond₁ rfl)
  refine ⟨_, _, hload₁, hload₂, rfl, List.append_assoc _ _ _, fun name => ?_⟩
  rw [typeOf?, typeOf?, List.append_assoc]

/-- A definition that gives back its argument. -/
def same : List Definition := [⟨"same", [⟨"x", none⟩], none, .object "x"⟩]

/-- A definition that calls the one before. -/
def again : List Definition :=
  [⟨"again", [⟨"y", none⟩], none, .operation "same" [.object "y"]⟩]

set_option maxRecDepth 4000 in
theorem load_definitions_in_parts_again :
    let joint := (load ((same ++ again).map .definition)).outcome bare
    joint.1 = .ok () ∧ ∃ c₁ c₂, (load (same.map .definition)).Returns bare () c₁ ∧
      (load (again.map .definition)).Returns c₁ () c₂ ∧
      c₂.definitions = joint.2.definitions ∧ c₂.typeOf? "again" = joint.2.typeOf? "again" := by
  have hload : ((load ((same ++ again).map .definition)).outcome bare).1 = .ok () := by
    cbv
  obtain ⟨c₁, c₂, hfirst, hsecond, -, hdefinitions, htypes⟩ := load_definitions_in_parts
    (⟨⟨false, false, 0, true, false⟩, [], rfl⟩ : bare.Reachable) (by decide)
    (Prod.ext hload rfl : (load ((same ++ again).map .definition)).Returns bare () _)
  exact ⟨hload, c₁, c₂, hfirst, hsecond, hdefinitions, htypes "again"⟩

end Checker

end Formulary
