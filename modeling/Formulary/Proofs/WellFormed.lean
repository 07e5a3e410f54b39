import Formulary.Proofs.FormedInference

namespace Formulary

theorem DataTypes.Grounded.checkFields_aligned {r : DataTypes} (hr : r.Grounded) (name : String) :
    Ends (fun _ => True) Fault.IsAligned (r.checkFields name) := by
  unfold checkFields
  split
  · trivial
  · refine Ends.forM fun v _ => Ends.forM fun f _ => ?_
    refine (hr.resolveClosed_forms (fun name t h => ?_) f.type).bind fun _ _ => trivial
    obtain ⟨p, -, heq⟩ := List.mem_map.1 h
    cases heq
    exact Ty.formed_var _

namespace Registry

variable {r : Registry}

theorem registerData_aligned (r : Registry) (d : DataType) :
    Ends (fun _ => True) Fault.IsAligned (r.registerData d) := by
  have hvariants : ∀ earlier vs, Ends (fun _ => True) Fault.IsAligned
      (r.data.checkVariants d.name earlier vs) := by
    intro earlier vs
    induction vs generalizing earlier with
    | nil => trivial
    | cons v rest ih =>
        rw [DataTypes.checkVariants]
        refine Ends.ite (fun _ => trivial) fun _ => ?_
        split
        · trivial
        · exact ih _
  refine Ends.bind (p := fun _ => True) ?_ fun _ _ => trivial
  unfold DataTypes.register
  refine Ends.ite (fun _ => trivial) fun _ => Ends.ite (fun _ => trivial) fun _ => ?_
  split
  · trivial
  · have hchecked := hvariants [] d.variants
    split
    · rename_i e he
      rw [he] at hchecked
      exact hchecked
    · trivial

mutual

theorem checkNames_aligned (r : Registry) (params : List String) (e : TypeExpr) :
    Ends (fun _ => True) Fault.IsAligned (r.checkNames params e) := by
  cases e with
  | blank | nat | tag => trivial
  | named name =>
      rw [checkNames]
      exact Ends.ite (fun _ => trivial) fun _ => trivial
  | app name args =>
      rw [checkNames]
      split
      · trivial
      · exact Ends.ite (fun _ => checkNamesList_aligned r params args) fun _ => trivial
  | arrow domain codomain =>
      rw [checkNames]
      exact (checkNames_aligned r params domain).bind fun _ _ => checkNames_aligned r params codomain

theorem checkNamesList_aligned (r : Registry) (params : List String) (es : List TypeExpr) :
    Ends (fun _ => True) Fault.IsAligned (r.checkNamesList params es) := by
  match es with
  | [] => trivial
  | e :: es =>
      rw [checkNamesList]
      exact (checkNames_aligned r params e).bind fun _ _ => checkNamesList_aligned r params es

end

theorem checkParams_aligned (hr : r.data.Grounded) (structureName : String) (earlier : List String)
    (ps : List Binder) :
    Ends (fun _ => True) Fault.IsAligned (r.checkParams structureName earlier ps) := by
  induction ps generalizing earlier with
  | nil => trivial
  | cons p rest ih =>
      rw [checkParams]
      refine Ends.ite (fun _ => ends_throw_bind trivial) fun _ => ?_
      split
      · exact (hr.resolveClosed_forms DataTypes.formsScope_nil _).bind fun _ _ => ih _
      · exact ih _

theorem checkOperations_aligned (r : Registry) (s : Structure) (earlier : List String)
    (ops : List Operation) :
    Ends (fun _ => True) Fault.IsAligned (r.checkOperations s earlier ops) := by
  induction ops generalizing earlier with
  | nil => trivial
  | cons op rest ih =>
      rw [checkOperations]
      refine Ends.ite (fun _ => ends_throw_bind trivial) fun _ => ?_
      split
      · exact ends_throw_bind trivial
      · exact (r.checkNames_aligned _ _).bind fun _ _ => ih _

theorem checkBodies_aligned (s : Structure) (earlier : List String) (bodies : List OperationBody) :
    Ends (fun _ => True) Fault.IsAligned (checkBodies s earlier bodies) := by
  induction bodies generalizing earlier with
  | nil => trivial
  | cons body rest ih =>
      rw [checkBodies]
      refine Ends.ite (fun _ => ends_throw_bind trivial) fun _ => ?_
      exact Ends.ite (fun _ => ends_throw_bind trivial) fun _ => ih _

theorem registerStructure_aligned (hr : r.data.Grounded) (s : Structure) :
    Ends (fun _ => True) Fault.IsAligned (r.registerStructure s) := by
  unfold registerStructure
  refine Ends.ite (fun _ => ends_throw_bind trivial) fun _ => ?_
  refine (checkParams_aligned hr s.name [] s.params).bind fun _ _ => ?_
  exact (r.checkOperations_aligned s [] s.operations).bind fun _ _ => trivial

theorem registerImplementation_aligned (hr : r.data.Grounded) (i : Implementation) :
    Ends (fun _ => True) Fault.IsAligned (r.registerImplementation i) := by
  have htemplate : ∀ s, Ends (fun _ => True) Fault.IsAligned (r.templateOf s i.args) := fun s =>
    ((hr.resolveList_forms DataTypes.formsScope_nil true i.args ⟨.startingAt 0, []⟩ trivial).2).bind
      fun _ _ => trivial
  unfold registerImplementation
  split
  · rename_i s _
    refine Ends.ite (fun _ => ends_throw_bind trivial) fun _ => ?_
    refine (r.checkNamesList_aligned [] i.args).bind fun _ _ => ?_
    refine (checkBodies_aligned s [] i.bodies).bind fun _ _ => ?_
    split
    · exact ends_throw_bind trivial
    · refine (htemplate s.name).bind fun template _ => ?_
      split
      · exact ends_throw_bind trivial
      · trivial
  · trivial

theorem register_aligned (hr : r.data.Grounded) (d : Declaration) :
    Ends (fun _ => True) Fault.IsAligned (r.register d) := by
  cases d with
  | data d => exact r.registerData_aligned d
  | interface s => exact registerStructure_aligned hr s
  | implementation i => exact registerImplementation_aligned hr i
  | definition d => trivial

theorem Coherent.registerAll {r r' : Registry} {ds : List Declaration} (h : r.Coherent)
    (hregister : r.registerAll ds = .ok r') : r'.Coherent :=
  registerAll_keeps hregister h fun _ _ _ _ hcoherent => hcoherent.register

end Registry

namespace Evaluation

variable {defs : List Definition} {deeper : Expr → Except Fault Expr}

mutual

theorem evalWith_aligned (h : ∀ e, Ends (fun _ => True) Fault.IsAligned (deeper e)) (e : Expr) :
    Ends (fun _ => True) Fault.IsAligned (evalWith defs deeper e) := by
  cases e with
  | blank | const => trivial
  | object name =>
      rw [evalWith]
      split
      · exact h _
      · trivial
  | operation name args =>
      rw [evalWith]
      refine (evalListWith_aligned h args).bind fun values _ => ?_
      split
      · exact h _
      · trivial
  | matching scrutinee cases =>
      rw [evalWith]
      refine (evalWith_aligned h scrutinee).bind fun value _ => ?_
      split
      · exact h _
      · trivial

theorem evalListWith_aligned (h : ∀ e, Ends (fun _ => True) Fault.IsAligned (deeper e))
    (es : List Expr) : Ends (fun _ => True) Fault.IsAligned (evalListWith defs deeper es) := by
  match es with
  | [] => trivial
  | e :: es =>
      rw [evalListWith]
      refine (evalWith_aligned h e).bind fun _ _ => ?_
      exact (evalListWith_aligned h es).bind fun _ _ => trivial

end

theorem eval_aligned (defs : List Definition) (depth : Int) (e : Expr) :
    Ends (fun _ => True) Fault.IsAligned (eval defs depth e) := by
  have hlevels : ∀ levels e, Ends (fun _ => True) Fault.IsAligned
      (evalLevels defs (depthBound depth) levels e) := by
    intro levels
    induction levels with
    | zero => exact fun _ => trivial
    | succ levels ih => exact evalWith_aligned ih
  exact hlevels _ e

end Evaluation

namespace Checker

/-- The types that a checker holds are formed as some data types are declared, which are those that it
knows. -/
structure FormedOver (r : DataTypes) (c : Checker) : Prop where
  data : c.registry.data = r
  coherent : c.registry.Coherent
  env : r.FormsEnv c.env
  inference : c.inference.Formed r

/-- Steps of a checker that declare no data type. -/
def forming (r : DataTypes) : Regime Checker Error := ⟨FormedOver r, Error.IsAligned⟩

section

variable {α : Type} {r : DataTypes} {p : α → Prop}

theorem inferring_forms {steps : Inference.Review α} (h : Upholds (Inference.reviewing r) steps p) :
    Upholds (forming r) (inferring steps) p :=
  h.zoom (fun _ hc => hc.inference) (fun _ _ hc hs => { hc with inference := hs }) fun _ he => he

theorem log_forms (line : String) : Upholds (forming r) (log line) fun _ => True :=
  .modify fun _ hc => { hc with inference := ⟨hc.inference.subst, hc.inference.held⟩ }

theorem within_forms {place : String} {steps : Run α} (h : Upholds (forming r) steps p) :
    Upholds (forming r) (Attempt.within place steps) p :=
  h.adapt rfl fun _ he => he

theorem orFault_forms {x : Except Fault α} (h : Ends p Fault.IsAligned x) :
    Upholds (forming r) (orFault x) p := by
  cases x with
  | ok a => exact .pure h
  | error f =>
      refine .throw fun g hg => ?_
      cases hg
      exact h

theorem get_forms : Upholds (forming r) (get : Run Checker) (FormedOver r) := .get fun _ hc => hc

theorem FormedOver.context {c : Checker} (hc : c.FormedOver r) (hr : r.Grounded) :
    c.context.data.Grounded ∧ c.context.data = r :=
  ⟨show c.registry.data.Grounded from hc.data ▸ hr, hc.data⟩

theorem declare_forms (hr : r.Grounded) {d : Declaration} (hd : dataTypesOf [d] = []) :
    Upholds (forming r) (declare (·.register d)) fun _ => True := by
  intro c hc
  have haligned := c.registry.register_aligned (hc.data ▸ hr) d
  have hgains := c.registry.register_gains d
  rw [outcome_declare]
  cases hregister : c.registry.register d with
  | ok registry =>
      rw [hregister] at hgains
      have hdata : registry.data = c.registry.data := by
        have htypes := hgains.types
        rw [hd, List.append_nil] at htypes
        exact congrArg DataTypes.mk htypes
      exact ⟨⟨hdata.trans hc.data, hc.coherent.register hregister, hc.env, hc.inference⟩, trivial⟩
  | error f =>
      rw [hregister] at haligned
      refine ⟨hc, fun g hg => ?_⟩
      cases hg
      exact haligned

theorem checkData_forms (hr : r.Grounded) (d : DataType) :
    Upholds (forming r) (checkData d) fun _ => True :=
  get_forms.bind fun _ hc => within_forms (orFault_forms ((hc.context hr).1.checkFields_aligned d.name))

theorem loadStructure_forms (hr : r.Grounded) (s : Structure) :
    Upholds (forming r) (loadStructure s) fun _ => True := by
  refine (declare_forms hr (d := .interface s) rfl).bind fun _ _ => (log_forms _).bind fun _ _ => ?_
  refine .forM fun ax _ => get_forms.bind fun c hc => ?_
  obtain ⟨hgrounded, hdata⟩ := hc.context hr
  have haxiom := Inference.inferAxiom_forms hgrounded (hdata ▸ hc.env) s ax
  rw [hdata] at haxiom
  exact (within_forms (inferring_forms haxiom)).bind fun _ _ => .pure trivial

theorem loadImplementation_forms (hr : r.Grounded) (i : Implementation) :
    Upholds (forming r) (loadImplementation i) fun _ => True := by
  refine (declare_forms hr (d := .implementation i) rfl).bind fun _ _ => ?_
  refine (log_forms _).bind fun _ _ => get_forms.bind fun c hc => ?_
  obtain ⟨hgrounded, hdata⟩ := hc.context hr
  split
  · rename_i registered _
    have hbodies := Inference.checkImplementation_forms hgrounded (hdata ▸ hc.env) registered
    rw [hdata] at hbodies
    exact inferring_forms hbodies
  · exact .pure trivial

theorem loadInterface_forms (hr : r.Grounded) (d : Declaration) :
    Upholds (forming r) (loadInterface d) fun _ => True := by
  cases d with
  | interface s => exact loadStructure_forms hr s
  | implementation i => exact loadImplementation_forms hr i
  | data | definition => exact .pure trivial

theorem checkNames_aligned (c : Checker) (earlier : List String) (defs : List Definition) :
    Ends (fun _ => True) Fault.IsAligned (c.checkNames earlier defs) := by
  induction defs generalizing earlier with
  | nil => trivial
  | cons d rest ih =>
      rw [checkNames]
      exact Ends.ite (fun _ => trivial) fun _ => ih _

theorem inferDefinitions_forms (hr : r.Grounded) (defs : List Definition) :
    Upholds (forming r) (inferDefinitions defs) r.FormsEnv := by
  refine get_forms.bind fun c hc => ?_
  obtain ⟨hgrounded, hdata⟩ := hc.context hr
  have hgroups := Inference.inferGroups_forms hgrounded (hdata ▸ hc.env)
    ((Definition.groups defs).map fun group => group.filterMap (defs[·]?))
  rw [hdata] at hgroups
  refine (inferring_forms hgroups).bind fun a ha => ?_
  obtain ⟨env, outcome⟩ := a
  cases outcome with
  | ok _ => exact .pure ha.1
  | error e => exact .throw ha.2

theorem loadDefinitions_forms (hr : r.Grounded) (defs : List Definition) :
    Upholds (forming r) (loadDefinitions defs) fun _ => True := by
  refine get_forms.bind fun c _ => (orFault_forms (c.checkNames_aligned [] defs)).bind fun _ _ => ?_
  refine (inferDefinitions_forms hr defs).bind fun env henv => ?_
  have hmodify : Upholds (forming r)
      (modify fun c => { c with env, definitions := c.definitions ++ defs } : Run PUnit)
      fun _ => True := .modify fun c hc => { hc with env := henv }
  refine hmodify.bind fun _ _ => .forM fun d _ => ?_
  split
  · exact log_forms _
  · exact .pure trivial

theorem check_forms (hr : r.Grounded) (e : Expr) :
    Upholds (forming r) (check e) fun v => r.Forms v.type := by
  refine get_forms.bind fun c hc => ?_
  obtain ⟨hgrounded, hdata⟩ := hc.context hr
  have hexpr := Inference.ofFaults_forms (Inference.inferExpr_forms hgrounded (hdata ▸ hc.env) e)
  rw [hdata] at hexpr
  exact (inferring_forms hexpr).bind fun t ht => get_forms.bind fun _ _ => .pure ht

theorem evaluate_forms (hr : r.Grounded) (e : Expr) :
    Upholds (forming r) (evaluate e) fun _ => True :=
  (check_forms hr e).bind fun _ _ => get_forms.bind fun c _ =>
    orFault_forms (Evaluation.eval_aligned c.definitions c.options.depth e)

end

/-- The type of types is declared as the standard library has it, and the types that a checker holds are
formed as declared. -/
structure Formed (c : Checker) : Prop where
  grounded : c.registry.data.Grounded
  types : c.FormedOver c.registry.data

/-- Steps of a checker that knows the type of types. -/
def session : Regime Checker Error := ⟨Formed, Error.IsAligned⟩

theorem session_of_forming {α : Type} {p : α → Prop} {steps : Run α}
    (h : ∀ r : DataTypes, r.Grounded → Upholds (forming r) steps p) : Upholds session steps p := by
  intro c hc
  obtain ⟨hover, hends⟩ := h c.registry.data hc.grounded c hc.types
  exact ⟨⟨hover.data.symm ▸ hc.grounded, hover.data.symm ▸ hover⟩, hends⟩

/-- More data types leave what is declared as it is. -/
theorem Formed.registerData {c : Checker} (hc : c.Formed) {d : DataType} {registry : Registry}
    (h : c.registry.registerData d = .ok registry) : Formed { c with registry } := by
  have hgains := c.registry.registerData_gains d
  rw [h] at hgains
  have hprefix : c.registry.data.types <+: registry.data.types := ⟨_, hgains.types.symm⟩
  have hcoherent := hc.types.coherent.registerData h
  have hmono : ∀ t, c.registry.data.Forms t → registry.data.Forms t := fun t ht =>
    ht.mono fun head hhead => hhead.mono hprefix
  refine ⟨hc.grounded.mono hprefix hcoherent.data, rfl, hcoherent, ?_, ?_⟩
  · exact fun name t ht => hmono t (hc.types.env name t ht)
  · exact ⟨fun v t ht => hmono t (hc.types.inference.subst v t ht),
      fun s hs v t ht => hmono t (hc.types.inference.held s hs v t ht)⟩

theorem loadData_forms (d : DataType) : Upholds session (loadData d) fun _ => True := by
  have hdeclare : Upholds session (declare (·.registerData d)) fun _ => True := by
    intro c hc
    have haligned := c.registry.registerData_aligned d
    rw [outcome_declare]
    cases hregister : c.registry.registerData d with
    | ok registry => exact ⟨hc.registerData hregister, trivial⟩
    | error f =>
        rw [hregister] at haligned
        refine ⟨hc, fun g hg => ?_⟩
        cases hg
        exact haligned
  exact hdeclare.bind fun _ _ => session_of_forming fun _ _ => log_forms _

/-- Takes in all but the data types, which are known. -/
def loadBeside (decls : List Declaration) : Run Unit := do
  (dataTypesOf decls).forM checkData
  decls.forM loadInterface
  loadDefinitions (definitionsOf decls)

theorem loadBeside_forms (decls : List Declaration) :
    Upholds session (loadBeside decls) fun _ => True := by
  refine session_of_forming fun r hr => ?_
  refine Upholds.bind (.forM fun d _ => checkData_forms hr d) fun _ _ => ?_
  refine Upholds.bind (.forM fun d _ => loadInterface_forms hr d) fun _ _ => ?_
  exact loadDefinitions_forms hr _

theorem load_forms (decls : List Declaration) : Upholds session (load decls) fun _ => True :=
  Upholds.bind (.forM fun d _ => loadData_forms d) fun _ _ => loadBeside_forms decls

theorem isAligned_parse (e : ParseError) : (Error.parse e).IsAligned := fun f hf => by cases hf

theorem serve_forms (q : Request) : Upholds session q.serve fun _ => True := by
  have hexpr : ∀ source, Upholds session (parseExpr source) fun _ => True := by
    intro source
    unfold parseExpr
    split
    · exact .pure trivial
    · exact .throw (isAligned_parse _)
  cases q with
  | load name source =>
      refine Upholds.adapt (g := session) ?_ rfl fun _ he => he
      split
      · exact load_forms _
      · exact .throw (isAligned_parse _)
  | check source =>
      refine Upholds.bind (p := fun _ => True) ?_ fun _ _ => .pure trivial
      exact (hexpr source).bind fun e _ => session_of_forming fun r hr =>
        (check_forms hr e).imp fun _ _ => trivial
  | evaluate source =>
      refine Upholds.bind (p := fun _ => True) ?_ fun _ _ => .pure trivial
      exact (hexpr source).bind fun e _ => session_of_forming fun r hr => evaluate_forms hr e

theorem outcome_loadData_of_registerAll {types : List DataType} {c : Checker} {registry : Registry}
    (h : c.registry.registerAll (types.map .data) = .ok registry) :
    ∃ log, (types.forM loadData).outcome c =
      (.ok (), { c with registry, inference := { c.inference with log } }) := by
  induction types generalizing c with
  | nil =>
      cases h
      exact ⟨_, rfl⟩
  | cons d types ih =>
      obtain ⟨first, hfirst, hrest⟩ := Registry.registerAll_cons h
      rw [List.forM, loadData, bind_assoc, Attempt.outcome_bind, outcome_declare_of_ok hfirst]
      exact ih (c := { c with registry := first, inference := _ }) hrest

/-- The data types of the standard library. -/
def libraryTypes : DataTypes := ⟨dataTypesOf StandardLibrary.dataTypes⟩

theorem registerAll_libraryTypes :
    Registry.empty.registerAll ((dataTypesOf StandardLibrary.dataTypes).map .data) =
      .ok ⟨libraryTypes, [], []⟩ := by
  rfl

theorem libraryTypes_coherent : Registry.Coherent ⟨libraryTypes, [], []⟩ :=
  Registry.coherent_empty.registerAll registerAll_libraryTypes

theorem libraryTypes_grounded : libraryTypes.Grounded where
  coherent := libraryTypes_coherent.data
  metaType := by decide
  scalar := by decide

theorem loadDataTypes_forms (options : Options) :
    ((load StandardLibrary.dataTypes).outcome (empty options)).2.Formed := by
  obtain ⟨log, hdata⟩ := outcome_loadData_of_registerAll (c := empty options) registerAll_libraryTypes
  have hstart : Formed { empty options with
      registry := ⟨libraryTypes, [], []⟩, inference := { (empty options).inference with log } } := by
    refine ⟨libraryTypes_grounded, rfl, libraryTypes_coherent, fun name t h => ?_, ?_⟩
    · simp [empty] at h
    · exact ⟨Subst.formed_empty, List.forall_mem_singleton.2 Subst.formed_empty⟩
  have hload : load StandardLibrary.dataTypes =
      (dataTypesOf StandardLibrary.dataTypes).forM loadData >>= fun _ =>
        loadBeside StandardLibrary.dataTypes := rfl
  rw [hload, Attempt.outcome_bind, hdata]
  exact (loadBeside_forms _ _ hstart).1

theorem loadLibrary_forms (options : Options) : (loadLibrary.outcome (empty options)).2.Formed := by
  have hfirst := loadDataTypes_forms options
  rw [loadLibrary, Attempt.outcome_bind]
  generalize (load StandardLibrary.dataTypes).outcome (empty options) = first at hfirst ⊢
  obtain ⟨r, c₁⟩ := first
  cases r with
  | ok _ => exact (load_forms _ _ hfirst).1
  | error _ => exact hfirst

theorem create_formed {options : Options} (h : options.bare = false) : (create options).Formed := by
  rw [create_eq, h]
  exact loadLibrary_forms options

theorem after_formed {c : Checker} (hc : c.Formed) (rs : List Request) :
    (c.after rs).Formed ∧ ∀ e ∈ c.errors rs, e.IsAligned := by
  induction rs generalizing c with
  | nil => exact ⟨hc, List.forall_mem_nil _⟩
  | cons q rest ih =>
      obtain ⟨hstate, hends⟩ := serve_forms q c hc
      obtain ⟨hformed, haligned⟩ := ih hstate
      refine ⟨hformed, fun e he => ?_⟩
      rcases List.mem_append.1 he with he | he
      · simp only [Request.error?] at he
        split at he
        · cases he
        · rename_i e' he'
          rw [he'] at hends
          obtain rfl : e = e' := by simpa using he
          exact hends
      · exact haligned e he

/-- Every type that a checker holds or comes to is made of declared data types with as many arguments as
they take, and no unification of such types fails for a number of arguments. -/
structure WellFormed (c : Checker) : Prop where
  /-- The type of types takes no argument. -/
  metaType : ∀ n, c.registry.data.Declares ⟨Ty.metaName, Ty.metaName, n⟩ ↔ n = 0
  env : ∀ name t, c.env.get? name = some t → c.registry.data.Forms t
  held : ∀ s n, (s, n) ∈ c.inference.held → ∀ x t, s.get? x = some t → c.registry.data.Forms t
  subst : ∀ x t, c.inference.subst.get? x = some t → c.registry.data.Forms t
  /-- The type of an expression, in an environment and after steps with such types. -/
  inferred : ∀ env e s, c.registry.data.FormsEnv env → s.Formed c.registry.data →
    ((Inference.infer c.context env e).outcome s).2.Formed c.registry.data ∧
      Ends c.registry.data.Forms Fault.IsAligned ((Inference.infer c.context env e).outcome s).1
  checked : ∀ e, Ends (fun v => c.registry.data.Forms v.type) Error.IsAligned ((check e).outcome c).1
  /-- What an annotation stands for, in a scope of such types. -/
  resolved : ∀ scope free e vars, c.registry.data.FormsScope scope →
    Ends c.registry.data.Forms Fault.IsAligned
      (Attempt.outcome (c.registry.data.resolve scope free e) vars).1
  /-- What a variant builds, and what it takes. -/
  instantiated : ∀ name supply, Ends c.registry.data.FormsVariant Fault.IsAligned
    (Attempt.outcome (c.registry.data.instantiate name) supply).1
  unified : ∀ a b, c.registry.data.Forms a → c.registry.data.Forms b →
    Ends (Subst.Formed c.registry.data.Declares) UnifyError.IsAligned (Ty.unify a b)
  unifiedAll : ∀ as bs, (∀ t ∈ as, c.registry.data.Forms t) → (∀ t ∈ bs, c.registry.data.Forms t) →
    Ends (Subst.Formed c.registry.data.Declares) UnifyError.IsAligned (Ty.unifyList as bs)
  loaded : ∀ decls, Ends (fun _ => True) Error.IsAligned ((load decls).outcome c).1

theorem Formed.wellFormed {c : Checker} (hc : c.Formed) : c.WellFormed where
  metaType n := by
    obtain ⟨d, hd, hparams, -⟩ := hc.grounded.metaType
    have hnone : c.registry.data.Declares ⟨Ty.metaName, Ty.metaName, 0⟩ :=
      .inl ⟨rfl, d, hd, by rw [hparams]; rfl⟩
    constructor
    · exact fun h => hc.grounded.fixed _ _ _ _ h hnone
    · rintro rfl
      exact hnone
  env := hc.types.env
  held s n hs := hc.types.inference.held (s, n) hs
  subst := hc.types.inference.subst
  inferred env e s henv hs :=
    Inference.infer_forms (c := c.context) hc.grounded henv e s hs
  checked e := (check_forms hc.grounded e c hc.types).2
  resolved scope free e vars hscope := (hc.grounded.resolve_forms hscope free e vars trivial).2
  instantiated name supply := (hc.grounded.instantiate_forms name supply trivial).2
  unified _ _ ha hb := Ty.unify_ends hc.grounded.fixed ha hb
  unifiedAll _ _ has hbs := Ty.unifyList_ends hc.grounded.fixed has hbs
  loaded decls := (load_forms decls c hc).2

/-- However a checker that knows the standard library is used, its types are well formed, and no request
is answered with the error that two instances have different numbers of arguments. -/
theorem session_wellFormed (options : Options) (hlibrary : options.bare = false) (rs : List Request) :
    ((create options).after rs).WellFormed ∧ ∀ e ∈ (create options).errors rs, e.IsAligned := by
  obtain ⟨hformed, haligned⟩ := after_formed (create_formed hlibrary) rs
  exact ⟨hformed.wellFormed, haligned⟩

theorem session_wellFormed_pair :
    libraryTypes.Declares ⟨"Type", "Matrix", 3⟩ ∧ ¬libraryTypes.Declares ⟨"Type", "Matrix", 2⟩ ∧
      libraryTypes.Declares ⟨"List", "List", 1⟩ ∧
      ((create ⟨false, false, 0, false, false⟩).after
        [.load "pairs" "data Pair(A, B) = Both(A, B) define p = Both(1, Cons(2, Nil))",
          .check "Some(p)"]).WellFormed :=
  ⟨by decide, by decide, by decide, (session_wellFormed ⟨false, false, 0, false, false⟩ rfl _).1⟩

end Checker

end Formulary
