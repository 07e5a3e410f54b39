import Formulary.Inference.Declaration
import Formulary.Proofs.Inferring

namespace Formulary

/-- An error that tells of the source and not of the checker. -/
def Error.IsOrdinary (e : Error) : Prop := ∀ f, e.cause = .inr f → f.IsOrdinary

namespace Inference

def reviewWatch : Watch State Error := ⟨(·.supply), State.Sound, Error.IsOrdinary⟩

variable {α : Type} {P : Upward} {A : α → Upward}

theorem ofFaults_keeps {steps : Infer α} (h : Keeps inferWatch P steps A) :
    Keeps reviewWatch P (Attempt.ofFaults steps) A :=
  h.adapt rfl rfl fun f hf g hg => by
    cases hg
    exact hf

theorem within_keeps {place : String} {steps : Review α} (h : Keeps reviewWatch P steps A) :
    Keeps reviewWatch P (Attempt.within place steps) A :=
  h.adapt rfl rfl fun _ he => he

theorem reviewReset_keeps : Keeps reviewWatch P (modify State.reset : Review PUnit) fun _ => ⊤ :=
  Keeps.modify (fun s => s.supply.le_resetCount) fun _ hs _ _ => hs.reset

theorem bindParams_keeps (c : Context) (env : TypeEnv) (names : Annotations) (ps : List Binder) :
    Keeps inferWatch
      (Known (ps.all Binder.isWhole = true) ⊓ env.inScope ⊓ annotationsBefore names)
      (bindParams c env names ps)
      fun r => Every Ty.inScope r.1 ⊓ r.2.1.inScope ⊓ annotationsBefore r.2.2 := by
  induction ps generalizing env names with
  | nil => exact Keeps.pure fun n h => ⟨⟨every_nil _ n, h.1.2⟩, h.2⟩
  | cons p rest ih =>
      rw [bindParams]
      have hwhole : ∀ n, Known ((p :: rest).all Binder.isWhole = true) n →
          p.isWhole = true ∧ rest.all Binder.isWhole = true := fun n h => by
        simpa [Known] using h
      refine freshVar_keeps.bind fun var => ?_
      have hrest : ∀ (names' : Annotations) {Q : Upward},
          (∀ n, Q n → (rest.all Binder.isWhole = true ∧ env.inScope n ∧ var.inScope n) ∧
            annotationsBefore names' n) →
          Keeps inferWatch Q (bindParams c (env.extend [(p.name, var)]) names' rest >>=
            fun r => pure (var :: r.1, r.2.1, r.2.2))
            fun r => Every Ty.inScope r.1 ⊓ r.2.1.inScope ⊓ annotationsBefore r.2.2 := by
        intro names' Q hQ
        refine (ih (env.extend [(p.name, var)]) names').followedBy (fun n h => ?_) fun r => ?_
        · obtain ⟨⟨hrest, henv, hvar⟩, hnames⟩ := hQ n h
          refine ⟨⟨hrest, TypeEnv.inScope_extend henv fun b hb => ?_⟩, hnames⟩
          rw [List.mem_singleton.1 hb]
          exact Ty.schemeBelow_of_inScope hvar
        · exact Keeps.pure fun n h =>
            ⟨⟨every_cons.2 ⟨(hQ n h.1).1.2.2, h.2.1.1⟩, h.2.1.2⟩, h.2.2⟩
      split
      · exact hrest names fun n h => ⟨⟨(hwhole n h.1.1.1).2, h.1.1.2, h.2⟩, h.1.2⟩
      · rename_i e htype
        refine (annotated_keeps c [] names e).followedBy (fun n h => ⟨⟨?_, ?_⟩, h.1.2⟩) fun r => ?_
        · simpa [Binder.isWhole, htype, Known] using (hwhole n h.1.1.1).1
        · exact fun name t hmem => absurd hmem List.not_mem_nil
        · refine (unify_keeps c var r.1).followedBy (fun n h => ⟨h.1.2, h.2.1⟩) fun _ => ?_
          exact hrest r.2 fun n h =>
            ⟨⟨(hwhole n h.1.1.1.1.1).2, h.1.1.1.1.2, h.1.1.2⟩, h.1.2.2⟩

theorem inferDefinition_keeps (c : Context) (env : TypeEnv) (d : Definition) :
    Keeps inferWatch (ready c env ⊓ Known (d.isWhole = true)) (inferDefinition c env d)
      Ty.inScope := by
  have hwhole : ∀ n, Known (d.isWhole = true) n → (d.params.all Binder.isWhole = true ∧
      d.result.all TypeExpr.isWhole = true) ∧ d.body.isWhole = true := fun n h => by
    simpa only [Known, Definition.isWhole,
      Bool.and_eq_true] using h
  unfold inferDefinition
  refine (bindParams_keeps c env [] d.params).followedBy
    (fun n h => ⟨⟨(hwhole n h.2).1.1, h.1.2⟩, every_nil _ n⟩) fun r => ?_
  refine (infer_keeps c r.2.1 d.body).followedBy
    (fun n h => ⟨⟨h.1.1.1, h.2.1.2⟩, (hwhole n h.1.2).2⟩) fun t => ?_
  have hresult : ∀ {Q : Upward}, (∀ n, Q n → Every Ty.inScope r.1 n ∧ t.inScope n) →
      Keeps inferWatch Q (known (Ty.curry r.1 t)) Ty.inScope := fun hQ =>
    (known_keeps _).of_pre fun n h => Ty.within_curry.2 (hQ n h)
  split
  · rename_i e hannotated
    refine (annotated_keeps c [] r.2.2 e).followedBy (fun n h => ⟨⟨?_, ?_⟩, h.1.2.2⟩) fun u => ?_
    · simpa [hannotated, Known] using (hwhole n h.1.1.2).1.2
    · exact fun name t hmem => absurd hmem List.not_mem_nil
    · refine (blaming_keeps (unify_keeps c t u.1)).followedBy (fun n h => ⟨h.1.2, h.2.1⟩)
        fun _ => ?_
      exact hresult fun n h => ⟨h.1.1.1.2.1.1, h.1.1.2⟩
  · exact hresult fun n h => ⟨h.1.2.1.1, h.2⟩

theorem bindGroup_keeps (env : TypeEnv) (ds : List Definition) :
    Keeps inferWatch env.inScope (bindGroup env ds)
      fun r => Every (fun b : Definition × Ty => b.2.inScope) r.1 ⊓ r.2.inScope ⊓
        Known (r.1.map (·.1) = ds) := by
  induction ds generalizing env with
  | nil => exact Keeps.pure fun n h => ⟨⟨every_nil _ n, h⟩, rfl⟩
  | cons d rest ih =>
      rw [bindGroup]
      refine freshVar_keeps.bind fun var => ?_
      refine (ih (env.extend [(d.name, var)])).followedBy (fun n h => ?_) fun r => ?_
      · refine TypeEnv.inScope_extend h.1 fun b hb => ?_
        rw [List.mem_singleton.1 hb]
        exact Ty.schemeBelow_of_inScope h.2
      · exact Keeps.pure fun n h =>
          ⟨⟨every_cons.2 ⟨h.1.2, h.2.1.1⟩, h.2.1.2⟩, congrArg (d :: ·) h.2.2⟩

/-- An environment of closed schemes that bind variables smaller than a number. -/
def closedEnv (env : TypeEnv) : Upward where
  holds n := env.IsClosed ∧ ∀ x t, env.get? x = some t → ∀ y ∈ t.unquantify.1, y < n
  mono hle h := ⟨h.1, fun x t hx y hy => Int.lt_of_lt_of_le (h.2 x t hx y hy) hle⟩

theorem get?_extend {env : TypeEnv} {bindings : List (String × Ty)} {x : String} {t : Ty}
    (h : (env.extend bindings).get? x = some t) : env.get? x = some t ∨ (x, t) ∈ bindings := by
  induction bindings generalizing env with
  | nil => exact .inl h
  | cons b rest ih =>
      rcases ih h with hinsert | hmem
      · rw [SortedMap.get?_insert] at hinsert
        split at hinsert
        · rename_i hx
          cases hinsert
          exact .inr (by simp [← hx])
        · exact .inl hinsert
      · exact .inr (List.mem_cons_of_mem _ hmem)

theorem inferGroup_keeps (c : Context) (env : TypeEnv) (ds : List Definition) :
    Keeps reviewWatch
      (Known (c.registry.isWhole = true) ⊓ closedEnv env ⊓ Known (ds.all Definition.isWhole = true))
      (inferGroup c env ds) closedEnv := by
  unfold inferGroup
  refine reviewReset_keeps.bind fun _ => ?_
  refine (ofFaults_keeps (bindGroup_keeps env ds)).followedBy
    (fun n h => TypeEnv.IsClosed.inScope h.1.1.2.1 n) fun r => ?_
  dsimp only
  have hmember : ∀ n, (Known (c.registry.isWhole = true) ⊓ closedEnv env ⊓
      Known (ds.all Definition.isWhole = true) ⊓ ⊤ ⊓
      (Every (fun b : Definition × Ty => b.2.inScope) r.1 ⊓ r.2.inScope ⊓
        Known (r.1.map (·.1) = ds))) n → ∀ b ∈ r.1, b.1.isWhole = true ∧ b.2.inScope n := by
    rintro n ⟨⟨⟨-, hds⟩, -⟩, ⟨htypes, -⟩, hmap⟩ b hb
    refine ⟨List.all_eq_true.1 hds b.1 ?_, htypes b hb⟩
    rw [← hmap]
    exact List.mem_map_of_mem hb
  refine Keeps.bind (A := fun _ => ⊤) (Keeps.forM fun b hb => within_keeps (ofFaults_keeps ?_))
    fun _ => ?_
  · refine (inferDefinition_keeps c r.2 b.1).followedBy
      (fun n h => ⟨⟨h.1.1.1.1, h.2.1.2⟩, (hmember n h b hb).1⟩) fun t => ?_
    exact (blaming_keeps (unify_keeps c b.2 t)).of_pre fun n h => ⟨(hmember n h.1 b hb).2, h.2⟩
  · refine (ofFaults_keeps requireIdempotent_keeps).bind fun _ => ?_
    refine Keeps.bind (A := fun s : State => s.subst.inScope) (Keeps.get fun s hs _ => hs.subst.2)
      fun s => Keeps.pure fun n h => ?_
    have hmono : ∀ b ∈ r.1, (s.subst.apply b.2).inScope n := fun b hb =>
      Subst.within_apply h.2 (hmember n h.1.1.1 b hb).2
    have henv : closedEnv env n := h.1.1.1.1.1.1.2
    refine ⟨fun x t hx => ?_, fun x t hx y hy => ?_⟩
    · rcases get?_extend hx with hx | hx
      · exact henv.1 x t hx
      · obtain ⟨b', hb', heq⟩ := List.mem_map.1 hx
        cases heq
        exact Ty.isClosedScheme_generalize (hmono b' hb').1
    · rcases get?_extend hx with hx | hx
      · exact henv.2 x t hx y hy
      · obtain ⟨b', hb', heq⟩ := List.mem_map.1 hx
        cases heq
        exact Ty.lt_of_mem_unquantify_generalize (hmono b' hb') hy

theorem run_inferGroups_cons (c : Context) (env : TypeEnv) (group : List Definition)
    (rest : List (List Definition)) (s : State) :
    (inferGroups c env (group :: rest)).run s =
      match (inferGroup c env group).outcome s with
      | (.ok env', s') => (inferGroups c env' rest).run s'
      | (.error e, s') => ((env, .error e), s') := by
  rw [inferGroups, StateT.run_bind]
  change ((inferGroup c env group).outcome s >>= _ : Id _) = _
  cases (inferGroup c env group).outcome s with
  | mk r s' =>
      cases r with
      | ok env' => rfl
      | error e => rfl

theorem inferGroups_keeps (c : Context) (env : TypeEnv) (groups : List (List Definition)) :
    Keeps reviewWatch (Known (c.registry.isWhole = true) ⊓ closedEnv env ⊓
        Known (∀ ds ∈ groups, ds.all Definition.isWhole = true))
      (liftM (inferGroups c env groups) : Review _)
      fun r => closedEnv r.1 ⊓ Known (∀ e, r.2 = .error e → e.IsOrdinary) := by
  induction groups generalizing env with
  | nil => exact Keeps.pure fun n h => ⟨h.1.2, fun e he => by cases he⟩
  | cons group rest ih =>
      have hgroup := inferGroup_keeps c env group
      constructor
      · intro s
        have hgrows := hgroup.grows s
        rw [Attempt.outcome_liftState, run_inferGroups_cons]
        revert hgrows
        cases (inferGroup c env group).outcome s with
        | mk r s' =>
            intro hgrows
            cases r with
            | ok env' => exact hgrows.trans ((ih env').grows s')
            | error e => exact hgrows
      · intro s hs hsound hpre
        have hgrows := hgroup.grows s
        have hkeeps := hgroup.keeps s
        rw [Attempt.outcome_liftState, run_inferGroups_cons] at hs ⊢
        revert hs hgrows hkeeps
        cases (inferGroup c env group).outcome s with
        | mk r s' =>
            intro hs hgrows hkeeps
            have hgroupWhole := hpre.2 group (List.mem_cons_self ..)
            cases r with
            | error e =>
                obtain ⟨hsound', he⟩ := hkeeps hs hsound ⟨hpre.1, hgroupWhole⟩
                have hle : (reviewWatch.supply s).next ≤ (reviewWatch.supply s').next :=
                  hs.next_le_next hgrows
                refine ⟨hsound', (closedEnv env).mono hle hpre.1.2, fun e' he' => ?_⟩
                cases he'
                exact he
            | ok env' =>
                have hs' := hs.of_le ((ih env').grows s')
                obtain ⟨hsound', henv'⟩ := hkeeps hs' hsound ⟨hpre.1, hgroupWhole⟩
                exact (ih env').keeps s' hs hsound' ⟨⟨hpre.1.1, henv'⟩, fun ds hds =>
                  hpre.2 ds (List.mem_cons_of_mem _ hds)⟩

theorem inferDefinitions_keeps (c : Context) (env : TypeEnv) (defs : List Definition) :
    Keeps reviewWatch (Known (c.registry.isWhole = true) ⊓ closedEnv env ⊓
        Known (defs.all Definition.isWhole = true))
      (liftM (inferDefinitions c env defs) : Review _)
      fun r => closedEnv r.1 ⊓ Known (∀ e, r.2 = .error e → e.IsOrdinary) := by
  refine (inferGroups_keeps c env _).of_pre fun n h => ⟨h.1, fun ds hds => ?_⟩
  obtain ⟨indexes, -, rfl⟩ := List.mem_map.1 hds
  refine List.all_eq_true.2 fun d hd => ?_
  obtain ⟨i, -, hi⟩ := List.mem_filterMap.1 hd
  exact List.all_eq_true.1 h.2 d (List.mem_of_getElem? hi)

theorem bindAxiomVars_keeps (c : Context) (scope : Scope) (env : TypeEnv) (names : Annotations)
    (bs : List Binder) :
    Keeps inferWatch (Known (bs.all Binder.isWhole = true) ⊓ scope.inScope ⊓ env.inScope ⊓
      annotationsBefore names) (bindAxiomVars c scope env names bs) TypeEnv.inScope := by
  induction bs generalizing env names with
  | nil => exact Keeps.pure fun n h => h.1.2
  | cons b rest ih =>
      rw [bindAxiomVars]
      have hwhole : ∀ n, Known ((b :: rest).all Binder.isWhole = true) n →
          b.isWhole = true ∧ rest.all Binder.isWhole = true := fun n h => by
        simpa [Known] using h
      have hrest : ∀ (t : Ty) (names' : Annotations) {Q : Upward},
          (∀ n, Q n → (rest.all Binder.isWhole = true ∧ scope.inScope n) ∧
            (env.inScope n ∧ t.inScope n) ∧ annotationsBefore names' n) →
          Keeps inferWatch Q (bindAxiomVars c scope (env.extend [(b.name, t)]) names' rest)
            TypeEnv.inScope := by
        intro t names' Q hQ
        refine (ih (env.extend [(b.name, t)]) names').of_pre fun n h => ?_
        obtain ⟨hwhole, ⟨henv, ht⟩, hnames⟩ := hQ n h
        refine ⟨⟨hwhole, TypeEnv.inScope_extend henv fun b' hb' => ?_⟩, hnames⟩
        rw [List.mem_singleton.1 hb']
        exact Ty.schemeBelow_of_inScope ht
      refine freshVar_keeps.bind fun var => ?_
      split
      · exact hrest var names fun n h =>
          ⟨⟨(hwhole n h.1.1.1.1).2, h.1.1.1.2⟩, ⟨h.1.1.2, h.2⟩, h.1.2⟩
      · rename_i e htype
        refine (annotated_keeps c scope names e).followedBy
          (fun n h => ⟨⟨?_, h.1.1.1.2⟩, h.1.2⟩) fun r => ?_
        · simpa [Binder.isWhole, htype, Known] using (hwhole n h.1.1.1.1).1
        · exact hrest r.1 r.2 fun n h =>
            ⟨⟨(hwhole n h.1.1.1.1.1).2, h.1.1.1.1.2⟩, ⟨h.1.1.1.2, h.2.1⟩, h.2.2⟩

theorem inferAxiom_keeps (c : Context) (env : TypeEnv) (s : Structure) (ax : Axiom) :
    Keeps reviewWatch (ready c env ⊓ Known (ax.isWhole = true)) (inferAxiom c env s ax)
      Ty.inScope := by
  have hwhole : ∀ n, Known (ax.isWhole = true) n →
      ax.vars.all Binder.isWhole = true ∧ ax.body.isWhole = true := fun n h =>
    Bool.and_eq_true_iff.1 h
  unfold inferAxiom
  refine reviewReset_keeps.bind fun _ => within_keeps (ofFaults_keeps ?_)
  have hscope : ∀ {Q : Upward}, Keeps inferWatch Q
      (s.params.mapM fun p => do return (p.name, some (← freshVar)))
      (Every fun b : String × Option Ty => Every Ty.inScope b.2.toList) := fun {Q} => by
    refine Keeps.mapM fun p _ => freshVar_keeps.bind fun t => Keeps.pure fun n h => ?_
    exact every_cons.2 ⟨h.2, every_nil _ n⟩
  refine hscope.bind fun scope => ?_
  refine (bindAxiomVars_keeps c scope env [] ax.vars).followedBy (fun n h =>
    ⟨⟨⟨(hwhole n h.1.1.2).1, fun name t hmem => h.2 (name, some t) hmem t (by simp)⟩, h.1.1.1.2⟩,
      every_nil _ n⟩) fun env' => ?_
  refine (infer_keeps { c with implemented := false } env' ax.body).followedBy
    (fun n h => ⟨⟨h.1.1.1.1.1, h.2⟩, (hwhole n h.1.1.1.2).2⟩) fun t => ?_
  exact (known_keeps t).of_pre fun n h => h.2

theorem checkBody_keeps (c : Context) (env : TypeEnv) (i : RegisteredImplementation)
    (op : Operation) (body : OperationBody) (e : Expr) :
    Keeps reviewWatch (ready c env ⊓ Known ((TypeExpr.isWholeList i.decl.args = true ∧
        op.signature.isWhole = true) ∧ e.isWhole = true))
      (checkBody c env i op body e) fun _ => ⊤ := by
  unfold checkBody
  refine reviewReset_keeps.bind fun _ => ?_
  have hsignature : Keeps inferWatch (ready c env ⊓ Known ((TypeExpr.isWholeList i.decl.args = true ∧
      op.signature.isWhole = true) ∧ e.isWhole = true) ⊓ ⊤) (do
        let r ← annotatedList c [] [] i.decl.args
        let scope : Scope := (i.interface.params.map (·.name)).zip (r.1.map some)
        let u ← annotated c scope [] op.signature
        return u.1.uncurry) fun r => Every Ty.inScope r.1 ⊓ r.2.inScope := by
    refine (annotatedList_keeps c [] [] i.decl.args).followedBy (fun n h => ⟨⟨h.1.2.1.1, ?_⟩,
      every_nil _ n⟩) fun r => ?_
    · exact fun name t hmem => absurd hmem List.not_mem_nil
    · refine (annotated_keeps c _ [] op.signature).followedBy (fun n h => ⟨⟨h.1.1.2.1.2, ?_⟩,
        every_nil _ n⟩) fun u => ?_
      · rintro name t hmem
        obtain ⟨u, hu, heq⟩ := List.mem_map.1 (List.of_mem_zip hmem).2
        cases heq
        exact h.2.1 t hu
      · exact Keeps.pure fun n h => Ty.within_uncurry h.2.1
  refine (ofFaults_keeps hsignature).bind fun r => ?_
  have hbody : ∀ {Q : Upward}, (∀ n, Q n → (ready c env n ∧ e.isWhole = true) ∧
      Every Ty.inScope r.1 n ∧ r.2.inScope n) → Keeps reviewWatch Q
        (Attempt.within (i.interface.name ++ i.args ++ ": operation " ++ body.name) <|
          Attempt.ofFaults do
            let t ← infer c (env.extend (body.params.zip r.1)) e
            unify c r.2 t) fun _ => ⊤ := by
    intro Q hQ
    refine within_keeps (ofFaults_keeps ?_)
    refine (infer_keeps c _ e).followedBy (fun n h => ⟨⟨(hQ n h).1.1.1, ?_⟩, (hQ n h).1.2⟩)
      fun t => ?_
    · exact TypeEnv.inScope_extend (hQ n h).1.1.2 fun b hb =>
        Ty.schemeBelow_of_inScope ((hQ n h).2.1 b.2 (List.of_mem_zip hb).2)
    · exact (unify_keeps c r.2 t).of_pre fun n h => ⟨(hQ n h.1).2.2, h.2⟩
  refine Keeps.ite ?_ (hbody fun n h => ⟨⟨h.1.1.1, h.1.1.2.2⟩, h.2⟩)
  refine Keeps.bind (A := fun _ => ⊤) (Keeps.throw fun n _ f hf => ?_) fun _ =>
    hbody fun n h => ⟨⟨h.1.1.1.1, h.1.1.1.2.2⟩, h.1.2⟩
  cases hf
  simp [Fault.IsOrdinary, Fault.kind]

theorem checkImplementation_keeps (c : Context) (env : TypeEnv) (i : RegisteredImplementation) :
    Keeps reviewWatch (ready c env ⊓ Known (i.interface.isWhole = true ∧ i.decl.isWhole = true))
      (checkImplementation c env i) fun _ => ⊤ := by
  refine Keeps.forM fun body hbody => ?_
  split
  · rename_i e op he hop
    refine (checkBody_keeps c env i op body e).of_pre fun n h => ⟨h.1, ?_⟩
    have hdecl : TypeExpr.isWholeList i.decl.args = true ∧
        i.decl.bodies.all OperationBody.isWhole = true := Bool.and_eq_true_iff.1 h.2.2
    refine ⟨⟨hdecl.1, i.interface.isWhole_of_operation? h.2.1 hop⟩, ?_⟩
    simpa [OperationBody.isWhole, he] using List.all_eq_true.1 hdecl.2 body hbody
  · exact Keeps.pure fun _ _ => trivial

end Inference

end Formulary
