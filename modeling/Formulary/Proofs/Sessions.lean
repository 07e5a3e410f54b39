import Formulary.Checker
import Formulary.Proofs.Declaring
import Formulary.Proofs.Parsing

/-!
Sessions with a checker. Whatever is loaded, checked and evaluated, the environment holds closed
schemes, the substitutions of inference leave alone what they put, and the only internal error that
is ever told is that evaluation went too deep.
-/

namespace Formulary

namespace Registry

variable {r : Registry}

theorem registerData_ends {d : DataType} (hr : r.isWhole = true) (hd : d.isWhole = true) :
    Ends (·.isWhole = true) Fault.IsOrdinary (r.registerData d) := by
  have hvariants : ∀ earlier vs, Ends (fun _ => True) Fault.IsOrdinary
      (r.data.checkVariants d.name earlier vs) := by
    intro earlier vs
    induction vs generalizing earlier with
    | nil => trivial
    | cons v rest ih =>
        rw [DataTypes.checkVariants]
        split
        · simp [Ends, Fault.IsOrdinary, Fault.kind]
        · split
          · simp [Ends, Fault.IsOrdinary, Fault.kind]
          · exact ih _
  refine Ends.bind (p := fun data => data = ⟨r.data.types ++ [d]⟩) ?_ fun data hdata => ?_
  · unfold DataTypes.register
    split
    · simp [Ends, Fault.IsOrdinary, Fault.kind]
    · split
      · simp [Ends, Fault.IsOrdinary, Fault.kind]
      · split
        · simp [Ends, Fault.IsOrdinary, Fault.kind]
        · have hchecked := hvariants [] d.variants
          split
          · rename_i e he
            rw [he] at hchecked
            exact hchecked
          · rfl
  · subst hdata
    obtain ⟨hdata, hstructures, himplementations⟩ := isWhole_iff.1 hr
    refine isWhole_iff.2 ⟨?_, hstructures, himplementations⟩
    simp only [DataTypes.isWhole, List.all_append, Bool.and_eq_true] at hdata ⊢
    exact ⟨hdata, by simpa using hd⟩

mutual

theorem checkNames_ends (r : Registry) (params : List String) (e : TypeExpr) :
    Ends (fun _ => True) Fault.IsOrdinary (r.checkNames params e) := by
  cases e with
  | blank | nat | tag => trivial
  | named name =>
      rw [checkNames]
      split
      · trivial
      · simp [Ends, Fault.IsOrdinary, Fault.kind, DataTypes.unknownType]
  | app name args =>
      rw [checkNames]
      split
      · simp [Ends, Fault.IsOrdinary, Fault.kind, DataTypes.unknownType]
      · split
        · exact checkNamesList_ends r params args
        · simp [Ends, Fault.IsOrdinary, Fault.kind]
  | arrow domain codomain =>
      rw [checkNames]
      exact (checkNames_ends r params domain).bind fun _ _ => checkNames_ends r params codomain

theorem checkNamesList_ends (r : Registry) (params : List String) (es : List TypeExpr) :
    Ends (fun _ => True) Fault.IsOrdinary (r.checkNamesList params es) := by
  match es with
  | [] => trivial
  | e :: es =>
      rw [checkNamesList]
      exact (checkNames_ends r params e).bind fun _ _ => checkNamesList_ends r params es

end

theorem checkParams_ends (r : Registry) (structureName : String) (earlier : List String)
    {ps : List Binder} (hps : ps.all Binder.isWhole = true) :
    Ends (fun _ => True) Fault.IsOrdinary (r.checkParams structureName earlier ps) := by
  induction ps generalizing earlier with
  | nil => trivial
  | cons p rest ih =>
      rw [List.all_cons, Bool.and_eq_true] at hps
      rw [checkParams]
      split
      · exact ends_throw_bind (by simp [Fault.IsOrdinary, Fault.kind])
      · split
        · rename_i kind hkind
          have hwhole : kind.isWhole = true := by simpa [Binder.isWhole, hkind] using hps.1
          refine (r.data.resolveClosed_ends (F := fun _ => True) hwhole fun _ hb => ?_).bind
            fun _ _ => ih _ hps.2
          exact absurd hb List.not_mem_nil
        · exact ih _ hps.2

theorem checkOperations_ends (r : Registry) (s : Structure) (earlier : List String)
    (ops : List Operation) :
    Ends (fun _ => True) Fault.IsOrdinary (r.checkOperations s earlier ops) := by
  induction ops generalizing earlier with
  | nil => trivial
  | cons op rest ih =>
      rw [checkOperations]
      split
      · exact ends_throw_bind (by simp [Fault.IsOrdinary, Fault.kind])
      · split
        · exact ends_throw_bind (by simp [Fault.IsOrdinary, Fault.kind])
        · exact (r.checkNames_ends _ _).bind fun _ _ => ih _

theorem registerStructure_ends {s : Structure} (hr : r.isWhole = true) (hs : s.isWhole = true) :
    Ends (·.isWhole = true) Fault.IsOrdinary (r.registerStructure s) := by
  have hwhole := hs
  simp only [Structure.isWhole, Bool.and_eq_true] at hwhole
  unfold registerStructure
  split
  · exact ends_throw_bind (by simp [Fault.IsOrdinary, Fault.kind])
  · refine (r.checkParams_ends s.name [] hwhole.1.1).bind fun _ _ => ?_
    refine (r.checkOperations_ends s [] s.operations).bind fun _ _ => ?_
    obtain ⟨hdata, hstructures, himplementations⟩ := isWhole_iff.1 hr
    refine isWhole_iff.2 ⟨hdata, fun s' hs' => ?_, himplementations⟩
    rcases List.mem_append.1 hs' with hs' | hs'
    · exact hstructures s' hs'
    · exact List.mem_singleton.1 hs' ▸ hs

theorem checkBodies_ends (s : Structure) (earlier : List String) (bodies : List OperationBody) :
    Ends (fun _ => True) Fault.IsOrdinary (checkBodies s earlier bodies) := by
  induction bodies generalizing earlier with
  | nil => trivial
  | cons body rest ih =>
      rw [checkBodies]
      split
      · exact ends_throw_bind (by simp [Fault.IsOrdinary, Fault.kind])
      · split
        · exact ends_throw_bind (by simp [Fault.IsOrdinary, Fault.kind])
        · exact ih _

theorem templateOf_ends (r : Registry) (structureName : String) {args : List TypeExpr}
    (hargs : TypeExpr.isWholeList args = true) :
    Ends (fun _ => True) Fault.IsOrdinary (r.templateOf structureName args) := by
  have hstart : (Supply.startingAt 0).Unwrapped := by decide
  have hresolved := ((r.data.resolveList_faults [] true args).keeps ⟨.startingAt 0, []⟩ hstart
    trivial hargs).2
  exact hresolved.bind fun _ _ => trivial

theorem registerImplementation_ends {i : Implementation} (hr : r.isWhole = true)
    (hi : i.isWhole = true) :
    Ends (·.isWhole = true) Fault.IsOrdinary (r.registerImplementation i) := by
  have hargs : TypeExpr.isWholeList i.args = true := by
    simp only [Implementation.isWhole, Bool.and_eq_true] at hi
    exact hi.1
  unfold registerImplementation
  split
  · rename_i s hs
    refine Ends.ite (fun _ => ends_throw_bind (by simp [Fault.IsOrdinary, Fault.kind])) fun _ => ?_
    refine (r.checkNamesList_ends [] i.args).bind fun _ _ => ?_
    refine (checkBodies_ends s [] i.bodies).bind fun _ _ => ?_
    split
    · exact ends_throw_bind (by simp [Fault.IsOrdinary, Fault.kind])
    · refine (r.templateOf_ends s.name hargs).bind fun template _ => ?_
      split
      · exact ends_throw_bind (by simp [Fault.IsOrdinary, Fault.kind])
      · obtain ⟨hdata, hstructures, himplementations⟩ := isWhole_iff.1 hr
        refine isWhole_iff.2 ⟨hdata, hstructures, fun i' hi' => ?_⟩
        rcases List.mem_append.1 hi' with hi' | hi'
        · exact himplementations i' hi'
        · rw [List.mem_singleton.1 hi']
          exact ⟨hstructures s (List.mem_of_find?_eq_some hs), hi⟩
  · simp [Ends, Fault.IsOrdinary, Fault.kind, throw, throwThe, MonadExceptOf.throw]

end Registry

theorem DataTypes.checkFields_ends {r : DataTypes} (hr : r.isWhole = true) (name : String) :
    Ends (fun _ => True) Fault.IsOrdinary (r.checkFields name) := by
  unfold checkFields
  split
  · simp [Ends, Fault.IsOrdinary, Fault.kind, unknownType]
  · rename_i d hd
    have hwhole := List.all_eq_true.1 hr d (List.mem_of_find?_eq_some hd)
    refine Ends.forM fun v hv => Ends.forM fun f hf => ?_
    have hfield : f.type.isWhole = true :=
      List.all_eq_true.1 (List.all_eq_true.1 hwhole v hv) f hf
    refine (r.resolveClosed_ends (F := fun _ => True) hfield fun b hb t ht => ?_).bind
      fun _ _ => trivial
    obtain ⟨p, -, rfl⟩ := List.mem_map.1 hb
    cases ht
    exact Ty.within_var trivial

namespace Checker

/-- The invariant of a checker. -/
structure Sound (c : Checker) : Prop where
  inference : c.inference.Sound
  env : Inference.closedEnv c.env c.inference.supply.next
  registry : c.registry.isWhole = true
  definitions : c.definitions.all Definition.isWhole = true

/-- The errors that a checker tells: of internal ones only that evaluation went too deep. -/
def Tells (e : Error) : Prop :=
  ∀ f, e.cause = .inr f → f.kind = .internalError → ∃ bound, f = .tooDeep bound

theorem tells_of_isOrdinary {e : Error} (h : e.IsOrdinary) : Tells e := fun f hf hkind =>
  absurd hkind (h f hf)

def runWatch : Watch Checker Error := ⟨(·.inference.supply), Sound, Tells⟩

variable {α : Type} {P : Upward} {A : α → Upward}

theorem inferring_keeps {steps : Inference.Review α} (h : Keeps Inference.reviewWatch P steps A) :
    Keeps runWatch P (inferring steps) A := by
  refine h.zoom (fun _ => rfl) (fun _ _ => rfl) (fun c hc => hc.inference)
    (fun c inference hc hs hle hu => ?_) fun _ => tells_of_isOrdinary
  exact { hc with
    inference := hs
    env := (Inference.closedEnv c.env).mono (hu.next_le_next hle) hc.env }

theorem log_keeps (line : String) : Keeps runWatch P (log line) fun _ => ⊤ :=
  Keeps.modify (fun _ => le_rfl) fun _ hc _ _ =>
    { hc with inference := ⟨hc.inference.subst, hc.inference.held, hc.inference.free⟩ }

theorem within_keeps {place : String} {steps : Run α} (h : Keeps runWatch P steps A) :
    Keeps runWatch P (Attempt.within place steps) A :=
  h.adapt rfl rfl fun _ he => he

/-- A fault that a checker tells. -/
def TellsFault (f : Fault) : Prop := f.kind = .internalError → ∃ bound, f = .tooDeep bound

theorem tellsFault_of_isOrdinary {f : Fault} (h : f.IsOrdinary) : TellsFault f := fun hkind =>
  absurd hkind h

theorem orFault_keeps {r : Except Fault α} (h : ∀ n, P n → Ends (fun a => A a n) TellsFault r) :
    Keeps runWatch P (orFault r) A := by
  cases r with
  | ok a => exact Keeps.pure h
  | error f =>
      refine Keeps.throw fun n hn g hg => ?_
      cases hg
      exact h n hn

theorem orFault_ordinary {r : Except Fault α}
    (h : ∀ n, P n → Ends (fun a => A a n) Fault.IsOrdinary r) : Keeps runWatch P (orFault r) A :=
  orFault_keeps fun n hn => by
    have hends := h n hn
    cases r with
    | ok a => exact hends
    | error f => exact tellsFault_of_isOrdinary hends

/-- What is read off the state of a checker. -/
def known (c : Checker) : Upward :=
  Known (c.registry.isWhole = true ∧ c.definitions.all Definition.isWhole = true) ⊓
    Inference.closedEnv c.env

theorem get_keeps : Keeps runWatch P (get : Run Checker) known :=
  Keeps.get fun _ hc _ => ⟨⟨hc.registry, hc.definitions⟩, hc.env⟩

theorem declare_keeps {change : Registry → Except Fault Registry} {φ : Prop}
    (h : ∀ r, φ → r.isWhole = true → Ends (·.isWhole = true) Fault.IsOrdinary (change r)) :
    Keeps runWatch (Known φ) (declare change) fun _ => ⊤ := by
  refine get_keeps.bind fun c => ?_
  refine Keeps.bind (A := fun r : Registry => Known (r.isWhole = true))
    (orFault_ordinary fun n hn => h c.registry hn.1 hn.2.1.1) fun r => ?_
  exact Keeps.modify (fun _ => le_rfl) fun c hc hr _ => { hc with registry := hr.2 }

theorem loadData_keeps (d : DataType) :
    Keeps runWatch (Known (d.isWhole = true)) (loadData d) fun _ => ⊤ :=
  (declare_keeps fun _ hd hr => Registry.registerData_ends hr hd).bind fun _ => log_keeps _

theorem checkData_keeps (d : DataType) : Keeps runWatch P (checkData d) fun _ => ⊤ := by
  refine get_keeps.bind fun c => within_keeps (orFault_ordinary fun n hn => ?_)
  exact DataTypes.checkFields_ends (Registry.isWhole_data hn.2.1.1) d.name

theorem loadStructure_keeps (s : Structure) :
    Keeps runWatch (Known (s.isWhole = true)) (loadStructure s) fun _ => ⊤ := by
  refine (declare_keeps fun _ hs hr => Registry.registerStructure_ends hr hs).bind fun _ => ?_
  refine (log_keeps _).bind fun _ => Keeps.forM fun ax hax => ?_
  refine get_keeps.bind fun c => ?_
  refine (within_keeps (inferring_keeps (Inference.inferAxiom_keeps c.context c.env s ax))).followedBy
    (fun n h => ⟨⟨h.2.1.1, h.2.2.1.inScope n⟩, ?_⟩) fun _ => Keeps.pure fun _ _ => trivial
  have hs : s.isWhole = true := h.1.1.1
  simp only [Structure.isWhole, Bool.and_eq_true] at hs
  exact List.all_eq_true.1 hs.2 ax hax

theorem loadImplementation_keeps (i : Implementation) :
    Keeps runWatch (Known (i.isWhole = true)) (loadImplementation i) fun _ => ⊤ := by
  refine (declare_keeps fun _ hi hr => Registry.registerImplementation_ends hr hi).bind fun _ => ?_
  refine (log_keeps _).bind fun _ => get_keeps.bind fun c => ?_
  split
  · rename_i registered hlast
    refine (inferring_keeps (Inference.checkImplementation_keeps c.context c.env
      registered)).of_pre fun n h => ⟨⟨h.2.1.1, h.2.2.1.inScope n⟩, ?_⟩
    exact (Registry.isWhole_iff.1 h.2.1.1).2.2 registered (List.mem_of_getLast? hlast)
  · exact Keeps.pure fun _ _ => trivial

theorem loadInterface_keeps (d : Declaration) :
    Keeps runWatch (Known (d.isWhole = true)) (loadInterface d) fun _ => ⊤ := by
  cases d with
  | interface s => exact loadStructure_keeps s
  | implementation i => exact loadImplementation_keeps i
  | data | definition => exact Keeps.pure fun _ _ => trivial

theorem checkNames_ends (c : Checker) (earlier : List String) (defs : List Definition) :
    Ends (fun _ => True) Fault.IsOrdinary (c.checkNames earlier defs) := by
  induction defs generalizing earlier with
  | nil => trivial
  | cons d rest ih =>
      rw [checkNames]
      split
      · simp [Ends, Fault.IsOrdinary, Fault.kind]
      · exact ih _

theorem inferDefinitions_keeps (defs : List Definition) :
    Keeps runWatch (Known (defs.all Definition.isWhole = true)) (inferDefinitions defs)
      Inference.closedEnv := by
  refine get_keeps.bind fun c => ?_
  refine (inferring_keeps (Inference.inferDefinitions_keeps c.context c.env defs)).followedBy
    (fun n h => ⟨⟨h.2.1.1, h.2.2⟩, h.1⟩) fun r => ?_
  obtain ⟨env, outcome⟩ := r
  cases outcome with
  | ok u => exact Keeps.pure fun n h => h.2.1
  | error e => exact Keeps.throw fun n h => tells_of_isOrdinary (h.2.2 e rfl)

theorem loadDefinitions_keeps (defs : List Definition) :
    Keeps runWatch (Known (defs.all Definition.isWhole = true)) (loadDefinitions defs)
      fun _ => ⊤ := by
  refine get_keeps.bind fun c => ?_
  refine Keeps.bind (A := fun _ => ⊤) (orFault_ordinary fun n _ => ?_) fun _ => ?_
  · exact (checkNames_ends c [] defs).imp fun _ _ => trivial
  · refine (inferDefinitions_keeps defs).followedBy (fun n h => h.1.1) fun env => ?_
    refine Keeps.bind (A := fun _ => ⊤) (Keeps.modify (fun _ => le_rfl) fun c hc h _ => ?_)
      fun _ => Keeps.forM fun d _ => ?_
    · refine { hc with env := h.2, definitions := ?_ }
      have hdefs : defs.all Definition.isWhole = true := h.1.1.1
      simp [hc.definitions, hdefs]
    · split
      · exact log_keeps _
      · exact Keeps.pure fun _ _ => trivial

/-- Takes in all but the definitions. -/
def loadInterfaces (decls : List Declaration) : Run Unit := do
  (dataTypesOf decls).forM loadData
  (dataTypesOf decls).forM checkData
  decls.forM loadInterface

theorem load_eq (decls : List Declaration) :
    load decls = loadInterfaces decls >>= fun _ => loadDefinitions (definitionsOf decls) := by
  simp only [load, loadInterfaces, bind_assoc]

theorem loadInterfaces_keeps (decls : List Declaration) :
    Keeps runWatch (Known (∀ d ∈ decls, d.isWhole = true)) (loadInterfaces decls) fun _ => ⊤ := by
  have htypes : ∀ n, Known (∀ d ∈ decls, d.isWhole = true) n →
      ∀ d ∈ dataTypesOf decls, d.isWhole = true := by
    intro n h d hd
    obtain ⟨decl, hdecl, hsome⟩ := List.mem_filterMap.1 hd
    cases decl with
    | data d' =>
        cases hsome
        exact h _ hdecl
    | _ => cases hsome
  refine Keeps.bind (A := fun _ => ⊤)
    (Keeps.forM fun d hd => (loadData_keeps d).of_pre fun n h => htypes n h d hd) fun _ => ?_
  refine Keeps.bind (A := fun _ => ⊤) (Keeps.forM fun d _ => checkData_keeps d) fun _ => ?_
  exact Keeps.forM fun d hd => (loadInterface_keeps d).of_pre fun n h => h.1.1 d hd

theorem isWhole_definitionsOf {decls : List Declaration} (h : ∀ d ∈ decls, d.isWhole = true) :
    (definitionsOf decls).all Definition.isWhole = true := by
  refine List.all_eq_true.2 fun d hd => ?_
  obtain ⟨decl, hdecl, hsome⟩ := List.mem_filterMap.1 hd
  cases decl with
  | definition d' =>
      cases hsome
      exact h _ hdecl
  | _ => cases hsome

theorem load_keeps (decls : List Declaration) :
    Keeps runWatch (Known (∀ d ∈ decls, d.isWhole = true)) (load decls) fun _ => ⊤ := by
  rw [load_eq]
  refine (loadInterfaces_keeps decls).bind fun _ => ?_
  exact (loadDefinitions_keeps _).of_pre fun n h => isWhole_definitionsOf h.1

theorem loadSource_keeps (name source : String) :
    Keeps runWatch P (loadSource name source) fun _ => ⊤ := by
  refine within_keeps ?_
  split
  · rename_i decls hparse
    exact (load_keeps decls).of_pre fun n _ => Declaration.parseAll_isWhole hparse
  · exact Keeps.throw fun n _ f hf => by cases hf

theorem loadLibrary_keeps : Keeps runWatch P loadLibrary fun _ => ⊤ := by
  refine (load_keeps StandardLibrary.dataTypes).followedBy (fun n _ => ?_) fun _ => ?_
  · exact List.all_eq_true.1 StandardLibrary.dataTypes_isWhole
  · refine (load_keeps StandardLibrary.structures).of_pre fun n _ => ?_
    exact List.all_eq_true.1 StandardLibrary.structures_isWhole

theorem parseExpr_keeps (source : String) :
    Keeps runWatch P (parseExpr source) fun e => Known (e.isWhole = true) := by
  unfold parseExpr
  split
  · rename_i e hparse
    exact Keeps.pure fun n _ => Expr.parse_isWhole hparse
  · exact Keeps.throw fun n _ f hf => by cases hf

theorem check_keeps (e : Expr) :
    Keeps runWatch (Known (e.isWhole = true)) (check e) fun v => v.type.inScope := by
  refine get_keeps.bind fun c => ?_
  refine (inferring_keeps (Inference.ofFaults_keeps
    (Inference.inferExpr_keeps c.context c.env e))).followedBy
    (fun n h => ⟨⟨h.2.1.1, h.2.2.1.inScope n⟩, h.1⟩) fun t => ?_
  exact get_keeps.bind fun c' => Keeps.pure fun n h => h.1.2

theorem evaluate_keeps (e : Expr) :
    Keeps runWatch (Known (e.isWhole = true)) (evaluate e) fun _ => ⊤ := by
  refine (check_keeps e).bind fun v => get_keeps.bind fun c => orFault_keeps fun n h => ?_
  have hends := Evaluation.eval_ends h.2.1.2 c.options.depth h.1.1
  cases hresult : Evaluation.eval c.definitions c.options.depth e with
  | ok value => trivial
  | error f =>
      rw [hresult] at hends
      intro hkind
      cases hends with
      | tooDeep bound => exact ⟨bound, rfl⟩
      | noMatchingCase value => simp [Fault.kind] at hkind

/-- What a checker is asked to do. -/
inductive Request where
  | load (name source : String)
  | check (source : String)
  | evaluate (source : String)

/-- Does what is asked. What comes of it is told elsewhere; errors are told. -/
def Request.serve : Request → Run Unit
  | .load name source => loadSource name source
  | .check source => do let _ ← checkSource source
  | .evaluate source => do let _ ← evaluateSource source

/-- The checker behind some requests, served one after the other. -/
def after (c : Checker) : List Request → Checker
  | [] => c
  | r :: rest => after (r.serve.outcome c).2 rest

/-- The error that a request is answered with, if it is. -/
def Request.error? (c : Checker) (r : Request) : Option Error :=
  match (r.serve.outcome c).1 with
  | .ok () => none
  | .error e => some e

/-- The errors that some requests, served one after the other, are answered with. -/
def errors (c : Checker) : List Request → List Error
  | [] => []
  | r :: rest => (r.error? c).toList ++ errors (r.serve.outcome c).2 rest

theorem serve_keeps (r : Request) : Keeps runWatch P r.serve fun _ => ⊤ := by
  cases r with
  | load name source => exact loadSource_keeps name source
  | check source =>
      refine Keeps.bind (A := fun _ => ⊤) ?_ fun _ => Keeps.pure fun _ _ => trivial
      refine (parseExpr_keeps source).bind fun e => ?_
      exact (check_keeps e).weaken (fun n h => h.2) fun _ _ _ => trivial
  | evaluate source =>
      refine Keeps.bind (A := fun _ => ⊤) ?_ fun _ => Keeps.pure fun _ _ => trivial
      exact (parseExpr_keeps source).bind fun e => (evaluate_keeps e).of_pre fun n h => h.2

theorem le_after (c : Checker) (rs : List Request) :
    c.inference.supply ≤ (c.after rs).inference.supply := by
  induction rs generalizing c with
  | nil => exact le_rfl
  | cons r rest ih => exact ((serve_keeps (P := ⊤) r).grows c).trans (ih _)

theorem after_sound {c : Checker} (hc : c.Sound) {rs : List Request}
    (hs : (c.after rs).inference.supply.Unwrapped) :
    (c.after rs).Sound ∧ ∀ e ∈ c.errors rs, Tells e := by
  induction rs generalizing c with
  | nil => exact ⟨hc, fun e he => absurd he List.not_mem_nil⟩
  | cons r rest ih =>
      have hserved := (serve_keeps (P := ⊤) r).keeps c
        (hs.of_le (le_after (r.serve.outcome c).2 rest)) hc trivial
      obtain ⟨hsound, htells⟩ := ih hserved.1 hs
      refine ⟨hsound, fun e he => ?_⟩
      rcases List.mem_append.1 he with he | he
      · have hresult := hserved.2
        simp only [Request.error?] at he
        split at he
        · cases he
        · rename_i e' he'
          rw [he'] at hresult
          obtain rfl : e = e' := by simpa using he
          exact hresult
      · exact htells e he

theorem empty_sound (options : Options) : (empty options).Sound where
  inference := Inference.State.sound_startingAt 0
  env := ⟨fun x t h => by simp [empty] at h, fun x t h => by simp [empty] at h⟩
  registry := rfl
  definitions := rfl

theorem create_eq (options : Options) :
    create options = if options.bare then empty options else (loadLibrary.outcome (empty options)).2 :=
  rfl

theorem create_sound (options : Options) (hs : (create options).inference.supply.Unwrapped) :
    (create options).Sound := by
  have hlibrary := (loadLibrary_keeps (P := ⊤)).keeps (empty options)
  rw [create_eq] at hs ⊢
  generalize loadLibrary.outcome (empty options) = loaded at hs hlibrary ⊢
  split
  · exact empty_sound options
  · rename_i hbare
    rw [if_neg hbare] at hs
    exact (hlibrary hs (empty_sound options) trivial).1

theorem first_create (options : Options) : (create options).inference.supply.first = 0 := by
  have hlibrary := (loadLibrary_keeps (P := ⊤)).grows (empty options)
  rw [create_eq]
  generalize loadLibrary.outcome (empty options) = loaded at hlibrary ⊢
  split
  · rfl
  · exact hlibrary.1.symm

/-- Fewer variables have been handed out than there are numbers for them: a number has sixty-four
bits. -/
def Unexhausted (c : Checker) : Prop := c.inference.supply.drawn < 2 ^ 63

instance (c : Checker) : Decidable c.Unexhausted := inferInstanceAs (Decidable (_ < _))

theorem unwrapped_of_le {options : Options} {c : Checker}
    (hle : (create options).inference.supply ≤ c.inference.supply) (h : c.Unexhausted) :
    c.inference.supply.Unwrapped := by
  have hfirst := hle.1
  rw [first_create] at hfirst
  unfold Unexhausted at h
  refine ⟨?_, ?_⟩
  · rw [← hfirst]
    decide
  · omega

/-- What a source that can be read leaves behind is what its declarations leave behind. -/
theorem state_load_request {source : String} {decls : List Declaration}
    (h : Declaration.parseAll source = .ok decls) (name : String) (c : Checker) :
    ((Request.load name source).serve.outcome c).2 = ((load decls).outcome c).2 := by
  rw [Request.serve, loadSource, h, Attempt.within, Attempt.outcome_adapt]

theorem outcome_check_of_ok {c : Checker} {e : Expr} {t : Ty} {s : Inference.State}
    (h : (Inference.inferExpr c.context c.env e).outcome c.inference = (.ok t, s)) :
    (check e).outcome c = (.ok ⟨t, s.warnings⟩, { c with inference := s }) := by
  have hinferring :
      (inferring (Attempt.ofFaults (Inference.inferExpr c.context c.env e))).outcome c =
        (.ok t, { c with inference := s }) := by
    rw [inferring, Attempt.outcome_zoom, Attempt.ofFaults, Attempt.outcome_adapt, h]
    rfl
  unfold check
  rw [Attempt.outcome_bind, Attempt.outcome_get]
  dsimp only
  rw [Attempt.outcome_bind, hinferring]
  rfl

theorem outcome_check_of_error {c : Checker} {e : Expr} {f : Fault} {s : Inference.State}
    (h : (Inference.inferExpr c.context c.env e).outcome c.inference = (.error f, s)) :
    (check e).outcome c = (.error (.fault f), { c with inference := s }) := by
  have hinferring :
      (inferring (Attempt.ofFaults (Inference.inferExpr c.context c.env e))).outcome c =
        (.error (.fault f), { c with inference := s }) := by
    rw [inferring, Attempt.outcome_zoom, Attempt.ofFaults, Attempt.outcome_adapt, h]
    rfl
  unfold check
  rw [Attempt.outcome_bind, Attempt.outcome_get]
  dsimp only
  rw [Attempt.outcome_bind, hinferring]

/-- A text of declarations that can be read, with what is read in it. -/
structure Source where
  text : String
  decls : List Declaration
  reads : Declaration.parseAll text = .ok decls

/-- An expression that a checker lets pass, with what is told of it. -/
structure Passing (c : Checker) where
  expr : Expr
  verdict : Verdict
  passes : ((check expr).outcome c).1 = .ok verdict ∧ ((check expr).outcome c).2.Unexhausted

theorem Passing.returns {c : Checker} (p : c.Passing) :
    (check p.expr).Returns c p.verdict ((check p.expr).outcome c).2 :=
  Prod.ext p.passes.1 rfl

end Checker

end Formulary
