import Formulary.Proofs.Sessions

namespace Formulary

namespace Declaration

def structure? : Declaration → Option Structure
  | .interface s => some s
  | _ => none

def implementation? : Declaration → Option Implementation
  | .implementation i => some i
  | _ => none

def isInterface : Declaration → Bool
  | .interface _ | .implementation _ => true
  | .data _ | .definition _ => false

/-- The declarations that a load registers, in the order in which it does so. -/
def registered (decls : List Declaration) : List Declaration :=
  (dataTypesOf decls).map .data ++ decls.filter isInterface

end Declaration

theorem mem_of_mem_dataTypesOf {decls : List Declaration} {d : DataType}
    (h : d ∈ dataTypesOf decls) : .data d ∈ decls := by
  obtain ⟨decl, hdecl, heq⟩ := List.mem_filterMap.1 h
  cases decl with
  | data d' =>
      cases heq
      exact hdecl
  | interface | implementation | definition => cases heq

theorem mem_of_mem_registered {decls : List Declaration} {d : Declaration}
    (h : d ∈ Declaration.registered decls) : d ∈ decls := by
  rcases List.mem_append.1 h with h | h
  · obtain ⟨data, hdata, rfl⟩ := List.mem_map.1 h
    exact mem_of_mem_dataTypesOf hdata
  · exact (List.mem_filter.1 h).1

namespace Registry

/-- One registry holds what another does, and behind that some more declarations. -/
structure Gains (r r' : Registry) (decls : List Declaration) : Prop where
  types : r'.data.types = r.data.types ++ dataTypesOf decls
  structures : r'.structures = r.structures ++ decls.filterMap Declaration.structure?
  implementations : ∃ new : List RegisteredImplementation,
    r'.implementations = r.implementations ++ new ∧
      new.map (·.decl) = decls.filterMap Declaration.implementation?

theorem Gains.refl (r : Registry) : r.Gains r [] :=
  ⟨(List.append_nil _).symm, (List.append_nil _).symm, [], (List.append_nil _).symm, rfl⟩

theorem Gains.trans {r r' r'' : Registry} {ds ds' : List Declaration} (h : r.Gains r' ds)
    (h' : r'.Gains r'' ds') : r.Gains r'' (ds ++ ds') := by
  obtain ⟨new, hnew, hdecls⟩ := h.implementations
  obtain ⟨new', hnew', hdecls'⟩ := h'.implementations
  refine ⟨?_, ?_, new ++ new', ?_, ?_⟩
  · rw [h'.types, h.types, List.append_assoc, dataTypesOf, dataTypesOf, dataTypesOf,
      List.filterMap_append]
  · rw [h'.structures, h.structures, List.append_assoc, List.filterMap_append]
  · rw [hnew', hnew, List.append_assoc]
  · rw [List.map_append, hdecls, hdecls', List.filterMap_append]

theorem registerData_gains (r : Registry) (d : DataType) :
    Ends (r.Gains · [.data d]) (fun _ => True) (r.registerData d) := by
  refine Ends.bind (p := fun data => data = ⟨r.data.types ++ [d]⟩) ?_ fun data hdata => ?_
  · unfold DataTypes.register
    refine Ends.ite (fun _ => trivial) fun _ => Ends.ite (fun _ => trivial) fun _ => ?_
    split
    · trivial
    · split
      · trivial
      · rfl
  · subst hdata
    exact ⟨rfl, (List.append_nil _).symm, [], (List.append_nil _).symm, rfl⟩

theorem ends_behind_check {α β : Type} {p : β → Prop} (check : Except Fault α)
    {f : α → Except Fault β} (h : ∀ a, Ends p (fun _ => True) (f a)) :
    Ends p (fun _ => True) (check >>= f) := by
  cases check with
  | ok a => exact h a
  | error e => trivial

theorem registerStructure_gains (r : Registry) (s : Structure) :
    Ends (r.Gains · [.interface s]) (fun _ => True) (r.registerStructure s) := by
  unfold registerStructure
  refine Ends.ite (fun _ => trivial) fun _ => ?_
  refine ends_behind_check _ fun _ => ends_behind_check _ fun _ => ?_
  exact ⟨(List.append_nil _).symm, rfl, [], (List.append_nil _).symm, rfl⟩

theorem registerImplementation_gains (r : Registry) (i : Implementation) :
    Ends (r.Gains · [.implementation i]) (fun _ => True) (r.registerImplementation i) := by
  unfold registerImplementation
  split
  · refine Ends.ite (fun _ => trivial) fun _ => ?_
    refine ends_behind_check _ fun _ => ends_behind_check _ fun _ => ?_
    split
    · trivial
    · refine ends_behind_check _ fun template => ?_
      split
      · trivial
      · exact ⟨(List.append_nil _).symm, (List.append_nil _).symm, _, rfl, rfl⟩
  · trivial

theorem register_gains (r : Registry) (d : Declaration) :
    Ends (r.Gains · [d]) (fun _ => True) (r.register d) := by
  cases d with
  | data d => exact r.registerData_gains d
  | interface s => exact r.registerStructure_gains s
  | implementation i => exact r.registerImplementation_gains i
  | definition d =>
      exact ⟨(List.append_nil _).symm, (List.append_nil _).symm, [], (List.append_nil _).symm, rfl⟩

theorem register_ends {r : Registry} (hr : r.isWhole = true) {d : Declaration}
    (hd : d.isWhole = true) : Ends (·.isWhole = true) Fault.IsOrdinary (r.register d) := by
  cases d with
  | data d => exact registerData_ends hr hd
  | interface s => exact registerStructure_ends hr hd
  | implementation i => exact registerImplementation_ends hr hd
  | definition d => exact hr

/-- Declarations that are registered one after the other. -/
def registerAll (r : Registry) (decls : List Declaration) : Except Fault Registry :=
  decls.foldlM register r

theorem registerAll_cons {r r' : Registry} {d : Declaration} {decls : List Declaration}
    (h : r.registerAll (d :: decls) = .ok r') :
    ∃ r₁, r.register d = .ok r₁ ∧ r₁.registerAll decls = .ok r' := by
  rw [registerAll, List.foldlM_cons] at h
  cases hfirst : r.register d with
  | ok r₁ =>
      rw [hfirst] at h
      exact ⟨r₁, rfl, h⟩
  | error f =>
      rw [hfirst] at h
      cases h

theorem registerAll_append {r r₁ r' : Registry} {ds ds' : List Declaration}
    (h : r.registerAll ds = .ok r₁) (h' : r₁.registerAll ds' = .ok r') :
    r.registerAll (ds ++ ds') = .ok r' := by
  rw [registerAll] at h
  rw [registerAll, List.foldlM_append, h]
  exact h'

/-- What the registration of one declaration keeps holds after all of them. -/
theorem registerAll_keeps {P : Registry → Prop} {r r' : Registry} {decls : List Declaration}
    (h : r.registerAll decls = .ok r') (hr : P r)
    (hstep : ∀ d ∈ decls, ∀ r₁ r₂, P r₁ → r₁.register d = .ok r₂ → P r₂) : P r' := by
  induction decls generalizing r with
  | nil =>
      cases h
      exact hr
  | cons d decls ih =>
      obtain ⟨r₁, hfirst, hrest⟩ := registerAll_cons h
      exact ih hrest (hstep d (List.mem_cons_self ..) r r₁ hr hfirst)
        fun d' hd' => hstep d' (List.mem_cons_of_mem _ hd')

theorem isWhole_of_registerAll {r r' : Registry} {decls : List Declaration}
    (h : r.registerAll decls = .ok r') (hdecls : ∀ d ∈ decls, d.isWhole = true)
    (hr : r.isWhole = true) : r'.isWhole = true := by
  refine registerAll_keeps (P := (·.isWhole = true)) h hr fun d hd r₁ r₂ hwhole hregister => ?_
  have hends := register_ends hwhole (hdecls d hd)
  rw [hregister] at hends
  exact hends

theorem gains_of_registerAll {r r' : Registry} {decls : List Declaration}
    (h : r.registerAll decls = .ok r') : r.Gains r' decls := by
  induction decls generalizing r with
  | nil =>
      cases h
      exact .refl _
  | cons d decls ih =>
      obtain ⟨r₁, hfirst, hrest⟩ := registerAll_cons h
      have hgains := register_gains r d
      rw [hfirst] at hgains
      exact hgains.trans (ih hrest)

end Registry

namespace Checker

/-- One checker has the options and the definitions of another with their types, and its registry
comes from the registry of the other by registering declarations. -/
structure Gains (c c' : Checker) (decls : List Declaration) : Prop where
  options : c'.options = c.options
  env : c'.env = c.env
  definitions : c'.definitions = c.definitions
  registry : c.registry.registerAll decls = .ok c'.registry

theorem Gains.refl (c : Checker) : c.Gains c [] := ⟨rfl, rfl, rfl, rfl⟩

theorem Gains.trans {c c' c'' : Checker} {ds ds' : List Declaration} (h : c.Gains c' ds)
    (h' : c'.Gains c'' ds') : c.Gains c'' (ds ++ ds') :=
  ⟨h'.options.trans h.options, h'.env.trans h.env, h'.definitions.trans h.definitions,
    Registry.registerAll_append h.registry h'.registry⟩

/-- Steps register some declarations in their order: all of them, or, when they fail, some first
ones. -/
structure Registers {α : Type} (steps : Run α) (decls : List Declaration) : Prop where
  ofOk : ∀ {c a c'}, steps.outcome c = (.ok a, c') → c.Gains c' decls
  ofError : ∀ {c e c'}, steps.outcome c = (.error e, c') → ∃ ds, ds <+: decls ∧ c.Gains c' ds

namespace Registers

variable {α β : Type} {steps : Run α} {ds ds' : List Declaration}

theorem bind {f : α → Run β} (h : Registers steps ds) (hf : ∀ a, Registers (f a) ds') :
    Registers (steps >>= f) (ds ++ ds') where
  ofOk {c b c'} hrun := by
    rw [Attempt.outcome_bind] at hrun
    cases hfirst : steps.outcome c with
    | mk r c₁ =>
        rw [hfirst] at hrun
        cases r with
        | ok a => exact (h.ofOk hfirst).trans ((hf a).ofOk hrun)
        | error e => cases hrun
  ofError {c e c'} hrun := by
    rw [Attempt.outcome_bind] at hrun
    cases hfirst : steps.outcome c with
    | mk r c₁ =>
        rw [hfirst] at hrun
        cases r with
        | ok a =>
            obtain ⟨taken, hprefix, hgains⟩ := (hf a).ofError hrun
            exact ⟨ds ++ taken, (List.prefix_append_right_inj ds).2 hprefix,
              (h.ofOk hfirst).trans hgains⟩
        | error e' =>
            cases hrun
            obtain ⟨taken, hprefix, hgains⟩ := h.ofError hfirst
            exact ⟨taken, hprefix.trans (List.prefix_append ds ds'), hgains⟩

theorem pure (a : α) : Registers (pure a) [] where
  ofOk hrun := by
    cases hrun
    exact .refl _
  ofError hrun := by cases hrun

theorem forM {f : α → Run Unit} {taken : α → List Declaration} (h : ∀ a, Registers (f a) (taken a))
    (l : List α) : Registers (l.forM f) (l.flatMap taken) := by
  induction l with
  | nil => exact .pure ()
  | cons a l ih => exact (h a).bind fun _ => ih

/-- Steps that leave the registry, the environment and the definitions as they are. -/
theorem of_outcome (h : ∀ c : Checker, c.Gains (steps.outcome c).2 []) : Registers steps [] where
  ofOk {c a c'} hrun := by
    have hgains := h c
    rwa [hrun] at hgains
  ofError {c e c'} hrun := by
    have hgains := h c
    rw [hrun] at hgains
    exact ⟨[], List.prefix_rfl, hgains⟩

theorem get : Registers (get : Run Checker) [] := of_outcome fun c => .refl c

end Registers

theorem inferring_registers {α : Type} (steps : Inference.Review α) :
    Registers (inferring steps) [] :=
  .of_outcome fun _ => ⟨rfl, rfl, rfl, rfl⟩

theorem log_registers (line : String) : Registers (log line) [] :=
  .of_outcome fun _ => ⟨rfl, rfl, rfl, rfl⟩

theorem orFault_registers {α : Type} (r : Except Fault α) : Registers (orFault r) [] := by
  refine .of_outcome fun c => ?_
  cases r with
  | ok a => exact .refl c
  | error f => exact .refl c

theorem within_registers {α : Type} {place : String} {steps : Run α} {ds : List Declaration}
    (h : Registers steps ds) : Registers (Attempt.within place steps) ds where
  ofOk {c a c'} hrun := by
    rw [Attempt.within, Attempt.outcome_adapt] at hrun
    cases hsteps : steps.outcome c with
    | mk r c₁ =>
        rw [hsteps] at hrun
        cases r with
        | ok a' =>
            cases hrun
            exact h.ofOk hsteps
        | error e => cases hrun
  ofError {c e c'} hrun := by
    rw [Attempt.within, Attempt.outcome_adapt] at hrun
    cases hsteps : steps.outcome c with
    | mk r c₁ =>
        rw [hsteps] at hrun
        cases r with
        | ok a => cases hrun
        | error e' =>
            cases hrun
            exact h.ofError hsteps

theorem outcome_declare (change : Registry → Except Fault Registry) (c : Checker) :
    (declare change).outcome c = match change c.registry with
      | .ok registry => (.ok (), { c with registry })
      | .error f => (.error (.fault f), c) := by
  unfold declare
  rw [Attempt.outcome_bind, Attempt.outcome_get]
  dsimp only
  cases change c.registry with
  | ok registry => rfl
  | error f => rfl

theorem declare_registers (d : Declaration) : Registers (declare (·.register d)) [d] := by
  constructor
  · intro c a c' hrun
    rw [outcome_declare] at hrun
    cases hchange : c.registry.register d with
    | ok registry =>
        rw [hchange] at hrun
        cases hrun
        refine ⟨rfl, rfl, rfl, ?_⟩
        rw [Registry.registerAll, List.foldlM_cons, hchange]
        rfl
    | error f =>
        rw [hchange] at hrun
        cases hrun
  · intro c e c' hrun
    rw [outcome_declare] at hrun
    cases hchange : c.registry.register d with
    | ok registry =>
        rw [hchange] at hrun
        cases hrun
    | error f =>
        rw [hchange] at hrun
        cases hrun
        exact ⟨[], List.nil_prefix, .refl c⟩

theorem loadData_registers (d : DataType) : Registers (loadData d) [.data d] :=
  (declare_registers (.data d)).bind fun _ => log_registers _

theorem checkData_registers (d : DataType) : Registers (checkData d) [] :=
  Registers.get.bind fun _ => within_registers (orFault_registers _)

theorem loadStructure_registers (s : Structure) : Registers (loadStructure s) [.interface s] := by
  have haxioms : Registers (s.axioms.forM fun ax => do
      let c ← get
      let _ ← Attempt.within ("structure " ++ s.name)
        (inferring (Inference.inferAxiom c.context c.env s ax))) [] := by
    have hnone : s.axioms.flatMap (fun _ => ([] : List Declaration)) = [] := by simp
    rw [← hnone]
    exact .forM (fun ax => Registers.get.bind fun c =>
      (within_registers (inferring_registers _)).bind fun _ => .pure ()) s.axioms
  exact (declare_registers (.interface s)).bind fun _ =>
    (log_registers _).bind fun _ => haxioms

theorem loadImplementation_registers (i : Implementation) :
    Registers (loadImplementation i) [.implementation i] := by
  refine (declare_registers (.implementation i)).bind fun _ =>
    (log_registers _).bind fun _ => Registers.get.bind fun c => ?_
  split
  · exact inferring_registers _
  · exact .pure ()

theorem loadInterface_registers (d : Declaration) :
    Registers (loadInterface d) ([d].filter Declaration.isInterface) := by
  cases d with
  | interface s => exact loadStructure_registers s
  | implementation i => exact loadImplementation_registers i
  | data | definition => exact .pure ()

theorem inferDefinitions_registers (defs : List Definition) :
    Registers (inferDefinitions defs) [] := by
  refine Registers.get.bind fun c => (inferring_registers _).bind fun result => ?_
  obtain ⟨env, outcome⟩ := result
  cases outcome with
  | ok => exact .pure env
  | error e => exact .of_outcome fun c => .refl c

theorem outcome_logTypes (env : TypeEnv) (defs : List Definition) (c : Checker) :
    ∃ inference, inference.supply = c.inference.supply ∧
      Attempt.outcome (σ := Checker) (ε := Error) (defs.forM fun d =>
        match env.get? d.name with
        | some t => log ("define " ++ d.name ++ " : " ++ t.render)
        | none => return ()) c = (.ok (), { c with inference }) := by
  induction defs generalizing c with
  | nil => exact ⟨c.inference, rfl, rfl⟩
  | cons d defs ih =>
      rw [List.forM, Attempt.outcome_bind]
      cases env.get? d.name with
      | some t =>
          let line := "define " ++ d.name ++ " : " ++ t.render
          obtain ⟨inference, hsupply, hrun⟩ :=
            ih { c with inference := { c.inference with log := c.inference.log.push line } }
          exact ⟨inference, hsupply, hrun⟩
      | none => exact ih c

theorem loadDefinitions_outcome (defs : List Definition) (c : Checker) :
    (∃ e c', (loadDefinitions defs).outcome c = (.error e, c') ∧ c.Gains c' []) ∨
      ∃ env c₁ inference, (inferDefinitions defs).Returns c env c₁ ∧
        (loadDefinitions defs).outcome c =
          (.ok (), { c₁ with env, definitions := c₁.definitions ++ defs, inference }) := by
  unfold loadDefinitions
  rw [Attempt.outcome_bind, Attempt.outcome_get]
  dsimp only
  rw [Attempt.outcome_bind]
  cases c.checkNames [] defs with
  | error f => exact .inl ⟨_, c, rfl, .refl c⟩
  | ok _ =>
      rw [orFault, Attempt.outcome_pure]
      dsimp only
      rw [Attempt.outcome_bind]
      cases hinfer : (inferDefinitions defs).outcome c with
      | mk r c₁ =>
          cases r with
          | error e =>
              obtain ⟨ds, hprefix, hgains⟩ := (inferDefinitions_registers defs).ofError hinfer
              rw [List.prefix_nil.1 hprefix] at hgains
              exact .inl ⟨e, c₁, rfl, hgains⟩
          | ok env =>
              obtain ⟨inference, -, hlogs⟩ := outcome_logTypes env defs
                { c₁ with env, definitions := c₁.definitions ++ defs }
              exact .inr ⟨env, c₁, inference, hinfer, hlogs⟩

theorem loadInterfaces_registers (decls : List Declaration) :
    Registers (loadInterfaces decls) (Declaration.registered decls) := by
  have hdata : (dataTypesOf decls).flatMap (fun d => [Declaration.data d]) =
      (dataTypesOf decls).map .data := List.flatMap_pure_eq_map ..
  have hchecks : (dataTypesOf decls).flatMap (fun _ => ([] : List Declaration)) = [] := by simp
  have hinterfaces : decls.flatMap (fun d => [d].filter Declaration.isInterface) =
      decls.filter Declaration.isInterface := by
    rw [← List.filter_flatMap, List.flatMap_singleton']
  have h := (Registers.forM loadData_registers (dataTypesOf decls)).bind fun _ =>
    (Registers.forM checkData_registers (dataTypesOf decls)).bind fun _ =>
      Registers.forM loadInterface_registers decls
  rw [hdata, hchecks, hinterfaces, List.nil_append] at h
  exact h

/-- What a load comes to: it fails and leaves the definitions as they were, or it succeeds and all
its declarations are registered. -/
theorem load_outcome (decls : List Declaration) (c : Checker) :
    (∃ e c' ds, (load decls).outcome c = (.error e, c') ∧
        ds <+: Declaration.registered decls ∧ c.Gains c' ds) ∨
      ∃ c₁ env c₂ inference, c.Gains c₁ (Declaration.registered decls) ∧
        (inferDefinitions (definitionsOf decls)).Returns c₁ env c₂ ∧
        (load decls).outcome c = (.ok (), { c₂ with
          env, definitions := c₂.definitions ++ definitionsOf decls, inference }) := by
  rw [load_eq, Attempt.outcome_bind]
  cases hfirst : (loadInterfaces decls).outcome c with
  | mk r c₁ =>
      cases r with
      | error e =>
          obtain ⟨ds, hprefix, hgains⟩ := (loadInterfaces_registers decls).ofError hfirst
          exact .inl ⟨e, c₁, ds, rfl, hprefix, hgains⟩
      | ok _ =>
          have hregistered := (loadInterfaces_registers decls).ofOk hfirst
          obtain ⟨e, c₂, hrun, hgains⟩ | ⟨env, c₂, inference, hinfer, hrun⟩ :=
            loadDefinitions_outcome (definitionsOf decls) c₁
          · have hall := hregistered.trans hgains
            rw [List.append_nil] at hall
            exact .inl ⟨e, c₂, _, hrun, List.prefix_rfl, hall⟩
          · exact .inr ⟨c₁, env, c₂, inference, hregistered, hinfer, hrun⟩

/-- A load that fails leaves the definitions and their types as they were. What was declared stays,
and behind it come some of the new declarations, the first ones in the order of loading. -/
theorem gains_of_load_error {decls : List Declaration} {c c' : Checker} {e : Error}
    (hrun : (load decls).outcome c = (.error e, c')) :
    c'.env = c.env ∧ c'.definitions = c.definitions ∧
      ∃ ds, ds <+: Declaration.registered decls ∧ c.registry.Gains c'.registry ds := by
  obtain ⟨e', c₁, ds, hload, hprefix, hgains⟩ | ⟨c₁, env, c₂, inference, -, -, hload⟩ :=
    load_outcome decls c
  · cases hload.symm.trans hrun
    exact ⟨hgains.env, hgains.definitions, ds, hprefix,
      Registry.gains_of_registerAll hgains.registry⟩
  · cases hload.symm.trans hrun

/-- A data type, and a definition that calls what nothing declares. -/
def unfounded : List Declaration :=
  [.data ⟨"A", [], [⟨"X", []⟩]⟩, .definition ⟨"f", [], none, .operation "g" [.const "1"]⟩]

/-- What the definition is refused for. -/
def unfoundedError : Error := .within "define f" (.fault (.unknownOperation "g" ""))

/-- A checker without the standard library. -/
def bare : Checker := create ⟨false, false, 0, true, false⟩

theorem gains_of_load_unfounded :
    (load unfounded).outcome bare = (.error unfoundedError, ((load unfounded).outcome bare).2) ∧
      ((load unfounded).outcome bare).2.env = bare.env ∧
      ((load unfounded).outcome bare).2.definitions = bare.definitions ∧
      ∃ ds, ds <+: Declaration.registered unfounded ∧
        bare.registry.Gains ((load unfounded).outcome bare).2.registry ds := by
  have herror : ((load unfounded).outcome bare).1 = .error unfoundedError := by
    cbv
  have hrun : (load unfounded).outcome bare = (.error unfoundedError, _) := Prod.ext herror rfl
  exact ⟨hrun, gains_of_load_error hrun⟩

/-- The data type stays when the definition is refused. -/
theorem load_keeps_data :
    ((load unfounded).outcome bare).1 = .error unfoundedError ∧
      bare.registry.data.typeNames = [] ∧
      ((load unfounded).outcome bare).2.registry.data.typeNames = ["A"] := by
  refine ⟨?_, rfl, ?_⟩
  · cbv
  · cbv

/-- Steps that change the registry by registering declarations only, none of which lacks a part. -/
def Grows {α : Type} (steps : Run α) : Prop :=
  ∀ c : Checker, ∃ ds, (∀ d ∈ ds, d.isWhole = true) ∧
    c.registry.registerAll ds = .ok (steps.outcome c).2.registry

theorem Registers.grows {α : Type} {steps : Run α} (h : Registers steps []) : Grows steps := by
  intro c
  cases hrun : steps.outcome c with
  | mk r c' =>
      cases r with
      | ok a => exact ⟨[], List.forall_mem_nil _, (h.ofOk hrun).registry⟩
      | error e =>
          obtain ⟨ds', hds, hgains⟩ := h.ofError hrun
          rw [List.prefix_nil] at hds
          subst hds
          exact ⟨[], List.forall_mem_nil _, hgains.registry⟩

theorem Grows.bind {α β : Type} {steps : Run α} {f : α → Run β} (h : Grows steps)
    (hf : ∀ a, Grows (f a)) : Grows (steps >>= f) := by
  intro c
  obtain ⟨ds, hwhole, hds⟩ := h c
  rw [Attempt.outcome_bind]
  cases hrun : steps.outcome c with
  | mk r c₁ =>
      rw [hrun] at hds
      cases r with
      | ok a =>
          obtain ⟨ds', hwhole', hds'⟩ := hf a c₁
          exact ⟨ds ++ ds', List.forall_mem_append.2 ⟨hwhole, hwhole'⟩,
            Registry.registerAll_append hds hds'⟩
      | error e => exact ⟨ds, hwhole, hds⟩

theorem load_grows {decls : List Declaration} (hwhole : ∀ d ∈ decls, d.isWhole = true) :
    Grows (load decls) := by
  intro c
  have hregistered : ∀ d ∈ Declaration.registered decls, d.isWhole = true := fun d hd =>
    hwhole d (mem_of_mem_registered hd)
  obtain ⟨e, c', ds, hload, hds, hgains⟩ | ⟨c₁, env, c₂, inference, hgains, hinfer, hload⟩ :=
    load_outcome decls c
  · rw [hload]
    exact ⟨ds, fun d hd => hregistered d (hds.subset hd), hgains.registry⟩
  · rw [hload]
    have hall := hgains.trans ((inferDefinitions_registers _).ofOk hinfer)
    rw [List.append_nil] at hall
    exact ⟨_, hregistered, hall.registry⟩

theorem check_registers (e : Expr) : Registers (check e) [] :=
  Registers.get.bind fun _ => (inferring_registers _).bind fun _ =>
    Registers.get.bind fun _ => .pure _

theorem evaluate_registers (e : Expr) : Registers (evaluate e) [] :=
  (check_registers e).bind fun _ => Registers.get.bind fun _ => orFault_registers _

theorem parseExpr_registers (source : String) : Registers (parseExpr source) [] := by
  unfold parseExpr
  split
  · exact .pure _
  · exact .of_outcome fun c => .refl c

theorem within_grows {α : Type} {place : String} {steps : Run α} (h : Grows steps) :
    Grows (Attempt.within place steps) := fun c => h c

theorem serve_grows (r : Request) : Grows r.serve := by
  cases r with
  | load name source =>
      refine within_grows ?_
      split
      · rename_i decls hparse
        exact load_grows (Declaration.parseAll_isWhole hparse)
      · exact fun c => ⟨[], List.forall_mem_nil _, rfl⟩
  | check source =>
      exact Grows.bind ((parseExpr_registers source).bind fun e => check_registers e).grows
        fun _ => (Registers.pure ()).grows
  | evaluate source =>
      exact Grows.bind ((parseExpr_registers source).bind fun e => evaluate_registers e).grows
        fun _ => (Registers.pure ()).grows

theorem registerAll_after (c : Checker) (rs : List Request) :
    ∃ ds, (∀ d ∈ ds, d.isWhole = true) ∧
      c.registry.registerAll ds = .ok (c.after rs).registry := by
  induction rs generalizing c with
  | nil => exact ⟨[], List.forall_mem_nil _, rfl⟩
  | cons r rest ih =>
      obtain ⟨ds, hwhole, hds⟩ := serve_grows r c
      obtain ⟨ds', hwhole', hds'⟩ := ih (r.serve.outcome c).2
      exact ⟨ds ++ ds', List.forall_mem_append.2 ⟨hwhole, hwhole'⟩,
        Registry.registerAll_append hds hds'⟩

theorem loadLibrary_grows : Grows loadLibrary :=
  (load_grows (List.all_eq_true.1 StandardLibrary.dataTypes_isWhole)).bind fun _ =>
    load_grows (List.all_eq_true.1 StandardLibrary.structures_isWhole)

theorem registerAll_create (options : Options) :
    ∃ ds, (∀ d ∈ ds, d.isWhole = true) ∧
      Registry.empty.registerAll ds = .ok (create options).registry := by
  have hlibrary := loadLibrary_grows (empty options)
  rw [create_eq]
  generalize loadLibrary.outcome (empty options) = loaded at hlibrary ⊢
  split
  · exact ⟨[], List.forall_mem_nil _, rfl⟩
  · exact hlibrary

/-- A checker that requests lead to. -/
def Reachable (c : Checker) : Prop := ∃ options rs, c = (create options).after rs

/-- Every registry of a session comes from nothing by registering declarations. -/
theorem Reachable.registerAll {c : Checker} (h : c.Reachable) :
    ∃ ds, (∀ d ∈ ds, d.isWhole = true) ∧ Registry.empty.registerAll ds = .ok c.registry := by
  obtain ⟨options, rs, rfl⟩ := h
  obtain ⟨ds, hwhole, hds⟩ := registerAll_create options
  obtain ⟨ds', hwhole', hds'⟩ := registerAll_after (create options) rs
  exact ⟨ds ++ ds', List.forall_mem_append.2 ⟨hwhole, hwhole'⟩,
    Registry.registerAll_append hds hds'⟩

theorem Reachable.isWhole {c : Checker} (h : c.Reachable) : c.registry.isWhole = true := by
  obtain ⟨ds, hwhole, hds⟩ := h.registerAll
  exact Registry.isWhole_of_registerAll hds hwhole rfl

theorem Reachable.sound {c : Checker} (h : c.Reachable) (hs : c.inference.supply.Unwrapped) :
    c.Sound := by
  obtain ⟨options, rs, rfl⟩ := h
  exact (after_sound (create_sound options (hs.of_le (le_after _ rs))) hs).1

theorem Reachable.unwrapped_of_le {c c' : Checker} (h : c.Reachable)
    (hle : c.inference.supply ≤ c'.inference.supply) (hc' : c'.Unexhausted) :
    c'.inference.supply.Unwrapped := by
  obtain ⟨options, rs, rfl⟩ := h
  exact Checker.unwrapped_of_le ((le_after _ rs).trans hle) hc'

end Checker

end Formulary
