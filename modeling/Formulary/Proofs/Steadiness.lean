import Formulary.Proofs.Defining
import Formulary.Proofs.Growing

namespace Formulary.Checker

/-- Whether a definition may be called with a number of arguments: its type takes as many, or it has
as many parameters. -/
def callable (c : Checker) (name : String) (n : Nat) : Bool :=
  Inference.takes c.env name n || c.definitions.any fun d => d.name = name && d.params.length = n

section

variable (trusted : String → Bool)

/-- What names stand for when a checker evaluates what refers to no definition but trusted ones. -/
def setting (c : Checker) : Setting where
  registry := c.registry
  free := .empty
  schemes name := if trusted name then c.env.get? name else none
  sized name n := c.callable name n = true

/-- Definitions are told apart by their names, from each other and from variants and operations, and
each that is trusted has the type that it is told to have. -/
structure Steady (c : Checker) : Prop where
  separated : c.Separated
  named : ∀ name, Inference.knows c.env name = true ↔ name ∈ c.definitionNames
  nodup : c.definitionNames.Nodup
  defines : (c.setting trusted).Defines c.definitions

/-- A definition of first order that refers to no definition but trusted ones. -/
structure Founds (c : Checker) (d : Definition) : Prop where
  firstOrder : d.isFirstOrder c.registry c.callable (Inference.knows c.env) = true
  refers : ∀ name ∈ d.referred, name ∈ c.definitionNames → trusted name = true

/-- A load that takes no name that something else goes by: no variant and no operation has the name
of a definition from before, no type has a name that has been written for a type. What is trusted
behind it is of first order and refers to trusted definitions. -/
structure Suits (c : Checker) (decls : List Declaration) : Prop where
  spares : c.Spares decls
  types : ∀ d ∈ Declaration.registered decls, ∀ name ∈ d.typeNames, name ∉ c.registry.written
  founds : ∀ d ∈ ((load decls).outcome c).2.definitions, trusted d.name = true →
    ((load decls).outcome c).2.Founds trusted d

end

variable {trusted : String → Bool}

theorem setting_schemes {c : Checker} {name : String} {scheme : Ty} :
    (c.setting trusted).schemes name = some scheme ↔
      trusted name = true ∧ c.env.get? name = some scheme := by
  show (if trusted name = true then c.env.get? name else none) = some scheme ↔ _
  split
  · simp_all
  · simp_all

theorem Gains.within {c c' : Checker} {ds : List Declaration} (h : c.Gains c' ds)
    (htypes : ∀ d ∈ ds, ∀ name ∈ d.typeNames, name ∉ c.registry.written) :
    (c.setting trusted).Within (c'.setting trusted) where
  data := (Registry.gains_of_registerAll h.registry).keeps htypes
  schemes name scheme hname := by
    rw [setting_schemes] at hname ⊢
    exact h.env ▸ hname
  sized name n hn := by
    show c'.callable name n = true
    rw [callable, h.env, h.definitions]
    exact hn
  free := rfl

theorem Steady.gains {c c' : Checker} (hc : c.Steady trusted) {ds : List Declaration}
    (h : c.Gains c' ds) (hnew : ∀ d ∈ ds, ∀ name ∈ d.valueNames, name ∉ c.definitionNames)
    (htypes : ∀ d ∈ ds, ∀ name ∈ d.typeNames, name ∉ c.registry.written) : c'.Steady trusted where
  separated := hc.separated.gains h hnew
  named name := by
    rw [h.env, definitionNames, h.definitions]
    exact hc.named name
  nodup := by
    rw [definitionNames, h.definitions]
    exact hc.nodup
  defines := by
    rw [h.definitions]
    refine hc.defines.within (h.within htypes) fun d _ scheme hname => ?_
    rw [setting_schemes] at hname ⊢
    exact h.env ▸ hname

theorem returns_loadDefinitions_supply {defs : List Definition} {c c' : Checker}
    (h : (loadDefinitions defs).Returns c () c') : c.checkNames [] defs = .ok () ∧
      ∃ env s, (Inference.inferGroups c.context c.env (Inference.groupsOf defs)).run c.inference =
          ((env, .ok ()), s) ∧ ∃ inference, inference.supply = s.supply ∧
            c' = { c with env, definitions := c.definitions ++ defs, inference } := by
  obtain ⟨hnames, -⟩ := returns_loadDefinitions h
  obtain ⟨_, _, hget, h⟩ := Attempt.returns_bind_iff.1 h
  cases hget
  obtain ⟨_, _, hcheck, h⟩ := Attempt.returns_bind_iff.1 h
  rw [hnames] at hcheck
  cases hcheck
  obtain ⟨env, c₁, hinfer, h⟩ := Attempt.returns_bind_iff.1 h
  obtain ⟨s, rfl, hrun⟩ := returns_inferDefinitions_iff.1 hinfer
  obtain ⟨_, _, hmodify, h⟩ := Attempt.returns_bind_iff.1 h
  cases hmodify
  obtain ⟨inference, hsupply, hlogs⟩ := outcome_logTypes env defs
    { c with inference := s, env, definitions := c.definitions ++ defs }
  refine ⟨hnames, env, s, hrun, inference, hsupply, ?_⟩
  exact congrArg Prod.snd (h.symm.trans hlogs)

theorem within_of_definitions {c c' : Checker} (hregistry : c'.registry = c.registry)
    (hdefinitions : ∀ d ∈ c.definitions, d ∈ c'.definitions)
    (henv : ∀ name scheme, c.env.get? name = some scheme → c'.env.get? name = some scheme) :
    (c.setting trusted).Within (c'.setting trusted) where
  data := by
    show c.registry.data.Keeps c'.registry.data
    rw [hregistry]
    exact .refl _
  schemes name scheme hname := by
    rw [setting_schemes] at hname ⊢
    exact ⟨hname.1, henv name scheme hname.2⟩
  sized name n hn := by
    rcases Bool.or_eq_true_iff.1 hn with htakes | hparams
    · obtain ⟨scheme, hname, hscheme⟩ := (Option.any_eq_true _ _).1 htakes
      exact Bool.or_eq_true_iff.2 (.inl ((Option.any_eq_true _ _).2 ⟨scheme, henv name scheme hname, hscheme⟩))
    · obtain ⟨d, hd, hparams⟩ := List.any_eq_true.1 hparams
      exact Bool.or_eq_true_iff.2 (.inr (List.any_eq_true.2 ⟨d, hdefinitions d hd, hparams⟩))
  free := rfl

/-- Definitions that are taken in and trusted have the types that they are told to have. -/
theorem Steady.loadDefinitions {defs : List Definition} {c c' : Checker} (hc : c.Steady trusted)
    (h : (loadDefinitions defs).Returns c () c') (hsound : c.Sound)
    (hu : c'.inference.supply.Unwrapped) (hwhole : defs.all Definition.isWhole = true)
    (hfounds : ∀ d ∈ c'.definitions, trusted d.name = true → c'.Founds trusted d) :
    c'.Steady trusted := by
  have hseparated := hc.separated.loadDefinitions defs
  rw [h] at hseparated
  obtain ⟨hnames, env, s, hrun, inference, hsupply, rfl⟩ := returns_loadDefinitions_supply h
  obtain ⟨hnodup, hnew⟩ := checkNames_eq_ok_iff.1 hnames
  have hnew : ∀ name ∈ defs.map (·.name), name ∉ c.definitionNames := fun name hname =>
    (isTaken_eq_false_iff.1 (hnew name hname).1).1
  have hgroups : ∀ name, name ∈ (Inference.groupsOf defs).flatten.map (·.name) ↔
      name ∈ defs.map (·.name) := fun name => by
    simp only [List.mem_map, List.mem_flatten]
    constructor
    · rintro ⟨d, ⟨group, hgroup, hd⟩, rfl⟩
      exact ⟨d, Inference.mem_of_mem_groupsOf hgroup hd, rfl⟩
    · rintro ⟨d, hd, rfl⟩
      obtain ⟨group, hgroup, hd⟩ := Inference.mem_groupsOf hd
      exact ⟨d, ⟨group, hgroup, hd⟩, rfl⟩
  have hknown := Inference.knows_of_inferGroups (congrArg Prod.fst hrun)
  have hold : ∀ name ∈ c.definitionNames, env.get? name = c.env.get? name := by
    intro name hname
    refine Inference.get?_of_inferGroups (congrArg Prod.fst hrun) fun group hgroup d hd heq => ?_
    exact hnew name (heq ▸ List.mem_map_of_mem (Inference.mem_of_mem_groupsOf hgroup hd)) hname
  have henv : ∀ name scheme, c.env.get? name = some scheme → env.get? name = some scheme :=
    fun name scheme hname =>
      (hold name ((hc.named name).1 (by simp [Inference.knows, hname]))).trans hname
  have hnamed : ∀ name, Inference.knows env name = true ↔
      name ∈ (c.definitions ++ defs).map (·.name) := fun name => by
    rw [List.map_append, List.mem_append, hknown, hgroups, hc.named, definitionNames]
    exact or_comm
  refine ⟨hseparated, hnamed, ?_, fun d hd scheme hname => ?_⟩
  · rw [definitionNames, List.map_append]
    refine List.nodup_append.2 ⟨hc.nodup, hnodup, fun name hold other hname heq => ?_⟩
    exact hnew other hname (heq ▸ hold)
  · obtain ⟨htrusted, hscheme⟩ := setting_schemes.1 hname
    rcases List.mem_append.1 hd with hd | hd
    · have hwithin : (c.setting trusted).Within
          (setting trusted { c with env, definitions := c.definitions ++ defs, inference }) :=
        within_of_definitions rfl (fun d hd => List.mem_append_left _ hd) henv
      refine (hc.defines d hd scheme (setting_schemes.2 ⟨htrusted, ?_⟩)).within hwithin
      exact (hold d.name (List.mem_map_of_mem hd)).symm.trans hscheme
    · obtain ⟨group, hgroup, hd⟩ := Inference.mem_groupsOf hd
      have hmem : ∀ group ∈ Inference.groupsOf defs, ∀ d ∈ group, d ∈ defs := fun _ =>
        fun hgroup _ => Inference.mem_of_mem_groupsOf hgroup
      have hfounds : ∀ d ∈ defs, trusted d.name = true → Founds trusted
          { c with env, definitions := c.definitions ++ defs, inference } d :=
        fun d hd => hfounds d (List.mem_append_right _ hd)
      have hschemes : ∀ name, trusted name = true → ∀ scheme, env.get? name = some scheme →
          (setting trusted { c with env, definitions := c.definitions ++ defs, inference }).schemes
            name = some scheme := fun name htrusted scheme hname => setting_schemes.2 ⟨htrusted, hname⟩
      have htogether : ∀ group ∈ Inference.groupsOf defs, ∀ d ∈ group, trusted d.name = true →
          ∀ d' ∈ group, trusted d'.name = true := fun group hgroup d hd =>
        Inference.forall_mem_group (p := (trusted · = true)) (fun d hd htrusted name hname hdefined =>
          (hfounds d hd htrusted).refers name hname ((hnamed name).1 ((hknown name).2 (.inl
            ((hgroups name).2 hdefined))))) hgroup hd
      obtain ⟨scheme', hscheme', hbody⟩ := Inference.hasScheme_of_inferGroups hrun (hsupply ▸ hu)
        hsound.inference hsound.registry hsound.env
        (fun group hgroup => List.all_eq_true.2 fun d hd =>
          List.all_eq_true.1 hwhole d (hmem group hgroup d hd))
        (Inference.nodup_groupsOf hnodup)
        (fun name hname => by
          rw [hgroups] at hname
          exact Bool.eq_false_iff.2 fun hknows => hnew name hname ((hc.named name).1 hknows))
        rfl hschemes (fun _ _ => id) htogether
        (fun group hgroup d hd htrusted => (hfounds d (hmem group hgroup d hd) htrusted).firstOrder)
        (fun group hgroup d hd htrusted name hname hknows =>
          (hfounds d (hmem group hgroup d hd) htrusted).refers name hname ((hnamed name).1 hknows))
        (fun pre group post heq d hd name hname hknows => by
          rcases (hknown name).1 hknows with hdefined | hold
          · exact .inr (Inference.exists_group_of_referred heq hd hname ((hgroups name).1 hdefined))
          · exact .inl hold)
        group hgroup d hd htrusted
      cases hscheme.symm.trans hscheme'
      exact hbody

/-- A load keeps a checker steady, whether it succeeds or fails. -/
theorem Steady.load {decls : List Declaration} {c : Checker} (hc : c.Steady trusted) (hsound : c.Sound)
    (hu : ((load decls).outcome c).2.inference.supply.Unwrapped)
    (hwhole : ∀ d ∈ decls, d.isWhole = true) (hsuits : c.Suits trusted decls) :
    ((load decls).outcome c).2.Steady trusted := by
  obtain ⟨hspares, htypes, hfounds⟩ := hsuits
  cases hload : (Checker.load decls).outcome c with
  | mk r c' =>
      rw [hload] at hu hfounds
      cases r with
      | error e =>
          obtain ⟨_, _, ds, heq, hds, hgains⟩ | ⟨_, _, _, _, -, -, heq⟩ := load_outcome decls c
          · cases heq.symm.trans hload
            exact hc.gains hgains (fun d hd => hspares d (hds.subset hd))
              fun d hd => htypes d (hds.subset hd)
          · cases heq.symm.trans hload
      | ok _ =>
          rw [load_eq] at hload
          obtain ⟨_, c₁, hfirst, hsecond⟩ := Attempt.returns_bind_iff.1 hload
          have hu₁ := (loadDefinitions_keeps (definitionsOf decls)).unwrapped_of_returns hsecond hu
          obtain ⟨hsound₁, -, -⟩ := (loadInterfaces_keeps decls).of_returns hfirst hu₁ hsound hwhole
          have hgains := (loadInterfaces_registers decls).ofOk hfirst
          exact (hc.gains hgains hspares htypes).loadDefinitions hsecond hsound₁ hu
            (isWhole_definitionsOf hwhole) hfounds

theorem env_load (decls : List Declaration) (hdecls : definitionsOf decls = []) (c : Checker) :
    ((load decls).outcome c).2.env = c.env := by
  obtain ⟨e, c', ds, hload, -, hgains⟩ | ⟨c₁, env, c₂, inference, hgains, hinfer, hload⟩ :=
    load_outcome decls c
  · rw [hload]
    exact hgains.env
  · rw [hload]
    rw [hdecls] at hinfer
    obtain ⟨s, rfl, hrun⟩ := returns_inferDefinitions_iff.1 hinfer
    cases hrun
    exact hgains.env

theorem create_env (options : Options) : (create options).env = ∅ := by
  rw [create_eq]
  split
  · rfl
  · rw [loadLibrary, Attempt.outcome_bind]
    have hfirst := env_load StandardLibrary.dataTypes rfl (empty options)
    generalize (load StandardLibrary.dataTypes).outcome (empty options) = first at hfirst ⊢
    obtain ⟨r, c₁⟩ := first
    cases r with
    | ok _ => exact (env_load StandardLibrary.structures rfl c₁).trans hfirst
    | error e => exact hfirst

theorem create_steady (options : Options) : (create options).Steady trusted where
  separated := create_separated options
  named name := by
    rw [create_env, definitionNames, create_definitions]
    simp [Inference.knows]
  nodup := by
    rw [definitionNames, create_definitions]
    exact .nil
  defines d hd := by
    rw [create_definitions] at hd
    cases hd

theorem Steady.of_inference {c : Checker} (hc : c.Steady trusted) (inference : Inference.State) :
    Steady trusted { c with inference } :=
  ⟨hc.separated, hc.named, hc.nodup, hc.defines⟩

/-- A request that loads, if anything, what suits a checker. -/
def Request.Suits (trusted : String → Bool) (c : Checker) : Request → Prop
  | .load _ source => ∀ decls, Declaration.parseAll source = .ok decls → c.Suits trusted decls
  | .check _ | .evaluate _ => True

/-- Requests that each suit the checker behind those before. -/
def SuitsAll (trusted : String → Bool) (c : Checker) : List Request → Prop
  | [] => True
  | r :: rest => r.Suits trusted c ∧ SuitsAll trusted (r.serve.outcome c).2 rest

theorem exists_inference_check_request (c : Checker) (source : String) :
    ∃ inference, ((Request.check source).serve.outcome c).2 = { c with inference } := by
  rw [Request.serve, checkSource, bind_assoc, parseExpr]
  cases Expr.parse source with
  | ok e => exact exists_inference_ask c (.check e)
  | error e => exact ⟨c.inference, rfl⟩

theorem exists_inference_evaluate_request (c : Checker) (source : String) :
    ∃ inference, ((Request.evaluate source).serve.outcome c).2 = { c with inference } := by
  rw [Request.serve, evaluateSource, bind_assoc, parseExpr]
  cases Expr.parse source with
  | ok e => exact exists_inference_ask c (.evaluate e)
  | error e => exact ⟨c.inference, rfl⟩

theorem Steady.serve {c : Checker} (hc : c.Steady trusted) (hsound : c.Sound) {r : Request}
    (hu : (r.serve.outcome c).2.inference.supply.Unwrapped) (hr : r.Suits trusted c) :
    (r.serve.outcome c).2.Steady trusted := by
  cases r with
  | load name source =>
      show (Attempt.outcome (Attempt.within name _) c).2.Steady trusted
      have hu : (Attempt.outcome (Attempt.within name _) c).2.inference.supply.Unwrapped := hu
      rw [Attempt.within, Attempt.outcome_adapt] at hu ⊢
      cases hparse : Declaration.parseAll source with
      | ok decls =>
          rw [hparse] at hu
          exact hc.load hsound hu (Declaration.parseAll_isWhole hparse) (hr decls hparse)
      | error e => exact hc
  | check source =>
      obtain ⟨inference, hserve⟩ := exists_inference_check_request c source
      exact hserve ▸ hc.of_inference inference
  | evaluate source =>
      obtain ⟨inference, hserve⟩ := exists_inference_evaluate_request c source
      exact hserve ▸ hc.of_inference inference

/-- Behind requests that suit the checkers that they come to, a checker is steady. -/
theorem Steady.after {c : Checker} (hc : c.Steady trusted) (hsound : c.Sound) {rs : List Request}
    (hu : (c.after rs).inference.supply.Unwrapped) (h : c.SuitsAll trusted rs) :
    (c.after rs).Steady trusted := by
  induction rs generalizing c with
  | nil => exact hc
  | cons r rest ih =>
      have hu₁ := hu.of_le (le_after (r.serve.outcome c).2 rest)
      exact ih (hc.serve hsound hu₁ h.1) ((serve_keeps (P := ⊤) r).keeps c hu₁ hsound trivial).1 hu h.2

end Formulary.Checker
