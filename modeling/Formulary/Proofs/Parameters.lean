import Formulary.Proofs.Steadiness

namespace Formulary

/-- A type takes the parameters of a definition, and may take more. -/
def Definition.TakesParams (d : Definition) (t : Ty) : Prop :=
  ∃ params result, t = Ty.curry params result ∧ params.length = d.params.length

theorem Definition.TakesParams.bind {d : Definition} {t : Ty} (h : d.TakesParams t) (θ : Valuation) :
    d.TakesParams (t.bind θ) := by
  obtain ⟨params, result, rfl, hlength⟩ := h
  exact ⟨_, _, Inference.bind_curry params result θ, by rw [List.length_map, hlength]⟩

theorem Definition.TakesParams.apply {d : Definition} {t : Ty} (h : d.TakesParams t) (s : Subst) :
    d.TakesParams (s.apply t) :=
  Subst.apply_eq_bind s t ▸ h.bind s.image

namespace Inference

variable {c : Context} {env : TypeEnv} {s s' : State}

theorem length_of_bindParams {names : Annotations} {ps : List Binder}
    {r : List Ty × TypeEnv × Annotations} (h : (bindParams c env names ps).Returns s r s') :
    r.1.length = ps.length := by
  induction ps generalizing env names s r with
  | nil =>
      cases h
      rfl
  | cons p rest ih =>
      obtain ⟨var, s₁, -, h⟩ := Attempt.returns_bind_iff.1 h
      have hrest : ∀ {names' : Annotations} {s₂ : State},
          (bindParams c (env.extend [(p.name, var)]) names' rest >>= fun r =>
            pure (var :: r.1, r.2.1, r.2.2)).Returns s₂ r s' → r.1.length = (p :: rest).length := by
        intro names' s₂ h
        obtain ⟨r', s₃, hbind, h⟩ := Attempt.returns_bind_iff.1 h
        cases h
        exact congrArg (· + 1) (ih hbind)
      split at h
      · exact hrest h
      · obtain ⟨a, s₂, -, h⟩ := Attempt.returns_bind_iff.1 h
        obtain ⟨_, s₃, -, h⟩ := Attempt.returns_bind_iff.1 h
        exact hrest h

theorem takesParams_of_inferDefinition {d : Definition} {t : Ty}
    (h : (inferDefinition c env d).Returns s t s') : d.TakesParams t := by
  obtain ⟨r, s₁, hparams, h⟩ := Attempt.returns_bind_iff.1 h
  obtain ⟨u, s₂, -, h⟩ := Attempt.returns_bind_iff.1 h
  have hknown : ∀ {s₃ : State}, (known (Ty.curry r.1 u)).Returns s₃ t s' → d.TakesParams t := by
    intro s₃ h
    cases h
    exact Definition.TakesParams.apply ⟨r.1, u, rfl, length_of_bindParams hparams⟩ _
  split at h
  · obtain ⟨a, s₃, -, h⟩ := Attempt.returns_bind_iff.1 h
    obtain ⟨_, s₄, -, h⟩ := Attempt.returns_bind_iff.1 h
    exact hknown h
  · exact hknown h

section

variable {R : State → State → Prop} [hR : Lasting R]

theorem bindParams_moves (c : Context) (env : TypeEnv) (names : Annotations) (ps : List Binder) :
    Moves R (bindParams c env names ps) := by
  induction ps generalizing env names with
  | nil => exact .pure _
  | cons p rest ih =>
      rw [bindParams]
      refine Moves.bind ((fresh_moves _).bind fun _ => .pure _) fun var => ?_
      have hrest : ∀ names', Moves R (bindParams c (env.extend [(p.name, var)]) names' rest >>=
          fun r => pure (var :: r.1, r.2.1, r.2.2)) := fun names' => (ih _ names').bind fun _ => .pure _
      split
      · exact hrest names
      · exact (fresh_moves _).bind fun a => (unify_moves c _ _).bind fun _ => hrest a.2

theorem inferDefinition_moves (c : Context) (env : TypeEnv) (d : Definition) :
    Moves R (inferDefinition c env d) := by
  refine (bindParams_moves c env [] d.params).bind fun r => (infer_moves c r.2.1 d.body).bind fun t => ?_
  split
  · exact (fresh_moves _).bind fun a => (blaming_moves (unify_moves c t a.1)).bind fun _ =>
      known_moves _
  · exact known_moves _

end

theorem apply_eq_of_unify {a b : Ty} (h : (unify c a b).Returns s () s') (hs : s.Sound)
    (ha : a.isMono = true) (hb : b.isMono = true) : s'.subst.apply a = s'.subst.apply b := by
  obtain ⟨line, hout⟩ := outcome_unify c a b s
  unfold Attempt.Returns at h
  rw [hout] at h
  have hmono := hs.subst.2.monoRange
  cases hunify : Ty.unify (s.subst.apply a) (s.subst.apply b) with
  | error e =>
      rw [hunify] at h
      cases h
  | ok found =>
      rw [hunify] at h
      cases h
      have hgeneral := Ty.unify_mostGeneral (Subst.isMono_apply hmono ha) (Subst.isMono_apply hmono hb)
        hunify
      have hsame := hgeneral.unifies _ (List.mem_singleton_self _)
      show ((s.logged c line).subst.compose found).apply a =
        ((s.logged c line).subst.compose found).apply b
      rw [s.logged_subst, Subst.apply_compose _ _ ha, Subst.apply_compose _ _ hb,
        Subst.apply_eq_bind found, Subst.apply_eq_bind found]
      exact hsame

/-- The steps for a definition of a group, beside its variable. -/
def inferMember (c : Context) (inner : TypeEnv) (b : Definition × Ty) : Review Unit :=
  Attempt.within ("define " ++ b.1.name) <| Attempt.ofFaults do
    let t ← inferDefinition c inner b.1
    blaming b.1.body (unify c b.2 t)

theorem inferMember_keeps (c : Context) (inner : TypeEnv) (b : Definition × Ty) :
    Keeps reviewWatch (ready c inner ⊓ Known (b.1.isWhole = true) ⊓ b.2.inScope)
      (inferMember c inner b) fun _ => ⊤ := by
  refine within_keeps (ofFaults_keeps ?_)
  refine (inferDefinition_keeps c inner b.1).followedBy (fun _ h => h.1) fun t => ?_
  exact (blaming_keeps (unify_keeps c b.2 t)).of_pre fun n h => ⟨h.1.2, h.2⟩

/-- The definitions of a group with their variables. -/
def membersInScope (bound : List (Definition × Ty)) : Upward :=
  Every (fun b : Definition × Ty => Known (b.1.isWhole = true) ⊓ b.2.inScope) bound

theorem inferMembers_keeps (c : Context) (inner : TypeEnv) (bound : List (Definition × Ty)) :
    Keeps reviewWatch (ready c inner ⊓ membersInScope bound) (bound.forM (inferMember c inner))
      fun _ => ⊤ :=
  Keeps.forM fun b hb => (inferMember_keeps c inner b).of_pre fun _ h =>
    ⟨⟨h.1, (h.2 b hb).1⟩, (h.2 b hb).2⟩

theorem returns_inferMember {inner : TypeEnv} {b : Definition × Ty}
    (h : (inferMember c inner b).Returns s () s') :
    (inferDefinition c inner b.1 >>= fun t => blaming b.1.body (unify c b.2 t)).Returns s () s' :=
  Attempt.returns_adapt.1 (Attempt.returns_adapt.1 h)

theorem refinedTo_of_inferMember {inner : TypeEnv} {b : Definition × Ty}
    (h : (inferMember c inner b).Returns s () s') : s.subst.RefinedTo s'.subst :=
  Moves.of_returns (R := State.Refined) ((inferDefinition_moves c inner b.1).bind fun t =>
    blaming_moves (unify_moves c b.2 t)) (returns_inferMember h)

theorem refinedTo_of_members {inner : TypeEnv} {bound : List (Definition × Ty)}
    (h : (bound.forM (inferMember c inner)).Returns s () s') : s.subst.RefinedTo s'.subst := by
  induction bound generalizing s with
  | nil =>
      cases h
      exact .refl
  | cons b rest ih =>
      obtain ⟨_, s₁, hfirst, hrest⟩ := Attempt.returns_bind_iff.1 h
      exact (refinedTo_of_inferMember hfirst).trans (ih hrest)

theorem takesParams_of_inferMember {inner : TypeEnv} {b : Definition × Ty}
    (h : (inferMember c inner b).Returns s () s') (hu : s'.supply.Unwrapped) (hs : s.Sound)
    (hready : ready c inner s.supply.next) (hwhole : b.1.isWhole = true)
    (hvar : b.2.isMono = true) : b.1.TakesParams (s'.subst.apply b.2) := by
  obtain ⟨t, s₁, hinfer, hunify⟩ := Attempt.returns_bind_iff.1 (returns_inferMember h)
  have hunify := returns_blaming.1 hunify
  have hu₁ := (unify_keeps c b.2 t).unwrapped_of_returns hunify hu
  obtain ⟨hs₁, hscope, -⟩ :=
    (inferDefinition_keeps c inner b.1).of_returns hinfer hu₁ hs ⟨hready, hwhole⟩
  rw [apply_eq_of_unify hunify hs₁ hvar hscope.1]
  exact (takesParams_of_inferDefinition hinfer).apply _

theorem takesParams_of_members {inner : TypeEnv} {bound : List (Definition × Ty)}
    (h : (bound.forM (inferMember c inner)).Returns s () s') (hu : s'.supply.Unwrapped)
    (hs : s.Sound) (hready : ready c inner s.supply.next)
    (hmembers : membersInScope bound s.supply.next) :
    ∀ b ∈ bound, b.1.TakesParams (s'.subst.apply b.2) := by
  induction bound generalizing s with
  | nil => exact fun b hb => absurd hb List.not_mem_nil
  | cons b rest ih =>
      obtain ⟨_, s₁, hfirst, hrest⟩ := Attempt.returns_bind_iff.1 h
      obtain ⟨⟨hwhole, hvar⟩, hmembers⟩ := every_cons.1 hmembers
      have hu₁ := (inferMembers_keeps c inner rest).unwrapped_of_returns hrest hu
      obtain ⟨hs₁, -, hle⟩ := (inferMember_keeps c inner b).of_returns hfirst hu₁ hs
        ⟨⟨hready, hwhole⟩, hvar⟩
      have hs₁ : s₁.Sound := hs₁
      refine List.forall_mem_cons.2 ⟨?_, ih hrest hs₁ ((ready c inner).mono hle hready)
        ((membersInScope rest).mono hle hmembers)⟩
      -- what the other definitions add puts types for the variables that are left
      obtain ⟨δ, hδ⟩ := (refinedTo_of_members hrest).exists_bind hs₁.subst.2.monoRange
      rw [hδ _ hvar.1]
      exact (takesParams_of_inferMember hfirst hu₁ hs hready hwhole hvar.1).bind δ

/-- Definitions with their types in an environment. -/
def TakesAll (env : TypeEnv) (defs : List Definition) : Prop :=
  ∀ d ∈ defs, ∃ scheme, env.get? d.name = some scheme ∧ d.TakesParams scheme.unquantify.2

theorem takesAll_of_inferGroup {env' : TypeEnv} {group : List Definition}
    (h : (inferGroup c env group).Returns s env' s') (hu : s'.supply.Unwrapped) (hs : s.Sound)
    (hwhole : c.registry.isWhole = true) (henv : closedEnv env s.supply.next)
    (hgroup : group.all Definition.isWhole = true) (hnodup : (group.map (·.name)).Nodup) :
    TakesAll env' group := by
  unfold inferGroup at h
  obtain ⟨_, s₀, hreset, h⟩ := Attempt.returns_bind_iff.1 h
  cases hreset
  obtain ⟨⟨bound, inner⟩, s₁, hbound, h⟩ := Attempt.returns_bind_iff.1 h
  obtain ⟨_, s₂, hmembers, h⟩ := Attempt.returns_bind_iff.1 h
  obtain ⟨_, s₃, hidempotent, h⟩ := Attempt.returns_bind_iff.1 h
  cases h
  have hmembers : (bound.forM (inferMember c inner)).Returns s₁ () s₂ := hmembers
  have hbound := Attempt.returns_adapt.1 hbound
  have hstate : (requireIdempotent.outcome s₂).2 = s' :=
    congrArg Prod.snd (Attempt.returns_adapt.1 hidempotent)
  rw [outcome_requireIdempotent] at hstate
  subst hstate
  obtain rfl := fst_of_bindGroup hbound
  have hu₁ := (inferMembers_keeps c inner bound).unwrapped_of_returns hmembers hu
  obtain ⟨hs₁, ⟨⟨hvars, hinner⟩, -⟩, -⟩ :=
    (bindGroup_keeps env (bound.map (·.1))).of_returns hbound hu₁ hs.reset (henv.1.inScope _)
  have hscope : membersInScope bound s₁.supply.next := fun b hb =>
    ⟨List.all_eq_true.1 hgroup b.1 (List.mem_map_of_mem hb), hvars b hb⟩
  obtain ⟨hs₂, -, -⟩ := (inferMembers_keeps c inner bound).of_returns hmembers hu hs₁
    ⟨⟨hwhole, hinner⟩, hscope⟩
  have hmono := (show s₂.Sound from hs₂).subst.2.monoRange
  intro d hd
  obtain ⟨b, hb, rfl⟩ := List.mem_map.1 hd
  refine ⟨(s₂.subst.apply b.2).generalize fun _ => false, ?_, ?_⟩
  · refine get?_extend_of_mem ?_ (List.mem_map.2 ⟨b, hb, rfl⟩)
    rw [List.map_map] at hnodup ⊢
    exact hnodup
  · rw [Ty.unquantify_generalize (Subst.isMono_apply hmono (hvars b hb).1)]
    exact takesParams_of_members hmembers hu hs₁ ⟨hwhole, hinner⟩ hscope b hb

theorem TakesAll.of_get? {env' : TypeEnv} {defs : List Definition} (h : TakesAll env defs)
    (hsame : ∀ d ∈ defs, env'.get? d.name = env.get? d.name) : TakesAll env' defs := by
  intro d hd
  obtain ⟨scheme, hscheme, htakes⟩ := h d hd
  exact ⟨scheme, (hsame d hd).trans hscheme, htakes⟩

theorem takesAll_of_inferGroups {env' : TypeEnv} {groups : List (List Definition)}
    (h : (inferGroups c env groups).run s = ((env', .ok ()), s')) (hu : s'.supply.Unwrapped)
    (hs : s.Sound) (hwhole : c.registry.isWhole = true) (henv : closedEnv env s.supply.next)
    (hgroups : ∀ group ∈ groups, group.all Definition.isWhole = true)
    (hnodup : (groups.flatten.map (·.name)).Nodup) :
    TakesAll env' groups.flatten := by
  induction groups generalizing env s with
  | nil => exact fun d hd => absurd hd List.not_mem_nil
  | cons group rest ih =>
      obtain ⟨hwholeFirst, hwholeRest⟩ := List.forall_mem_cons.1 hgroups
      rw [List.flatten_cons, List.map_append] at hnodup
      obtain ⟨hnodupFirst, hnodupRest, hdisjoint⟩ := List.nodup_append.1 hnodup
      rw [run_inferGroups_cons] at h
      cases hgroup : (inferGroup c env group).outcome s with
      | mk r s₁ =>
          rw [hgroup] at h
          cases r with
          | error e => cases h
          | ok env₁ =>
              have h : (inferGroups c env₁ rest).run s₁ = ((env', .ok ()), s') := h
              have hu₁ : s₁.supply.Unwrapped := by
                have hgrows := (inferGroups_keeps c env₁ rest).grows s₁
                rw [Attempt.outcome_liftState, h] at hgrows
                exact hu.of_le hgrows
              obtain ⟨hs₁, henv₁, -⟩ := (inferGroup_keeps c env group).of_returns hgroup hu₁ hs
                ⟨⟨hwhole, henv⟩, hwholeFirst⟩
              have hfirst := takesAll_of_inferGroup hgroup hu₁ hs hwhole henv hwholeFirst hnodupFirst
              have hkept : TakesAll env' group := hfirst.of_get? fun d hd =>
                get?_of_inferGroups (congrArg Prod.fst h) fun g hg d' hd' heq =>
                  hdisjoint d.name (List.mem_map_of_mem hd) d'.name
                    (List.mem_map_of_mem (List.mem_flatten_of_mem hg hd')) heq.symm
              rw [List.flatten_cons]
              intro d hd
              rcases List.mem_append.1 hd with hd | hd
              · exact hkept d hd
              · exact ih h hs₁ henv₁ hwholeRest hnodupRest d hd

end Inference

namespace Checker

/-- The definitions of a checker have types that take their parameters. -/
def Arranged (c : Checker) : Prop := Inference.TakesAll c.env c.definitions

theorem Gains.arranged {c c' : Checker} {ds : List Declaration} (h : c.Gains c' ds)
    (hc : c.Arranged) : c'.Arranged := by
  unfold Arranged
  rw [h.env, h.definitions]
  exact hc

theorem Arranged.loadDefinitions {defs : List Definition} {c c' : Checker} (hc : c.Arranged)
    (h : (loadDefinitions defs).Returns c () c') (hsound : c.Sound)
    (hu : c'.inference.supply.Unwrapped) (hwhole : defs.all Definition.isWhole = true) :
    c'.Arranged := by
  obtain ⟨hnames, env, s, hrun, inference, hsupply, rfl⟩ := returns_loadDefinitions_supply h
  obtain ⟨hnodup, hnew⟩ := checkNames_eq_ok_iff.1 hnames
  have hmem : ∀ group ∈ Inference.groupsOf defs, ∀ d ∈ group, d ∈ defs := fun _ hgroup _ =>
    Inference.mem_of_mem_groupsOf hgroup
  have hadded := Inference.takesAll_of_inferGroups hrun (hsupply ▸ hu) hsound.inference
    hsound.registry hsound.env
    (fun group hgroup => List.all_eq_true.2 fun d hd =>
      List.all_eq_true.1 hwhole d (hmem group hgroup d hd)) (Inference.nodup_groupsOf hnodup)
  have hkept : Inference.TakesAll env c.definitions := hc.of_get? fun d hd =>
    Inference.get?_of_inferGroups (congrArg Prod.fst hrun) fun group hgroup d' hd' heq => by
      have hfree := (hnew d'.name (List.mem_map_of_mem (hmem group hgroup d' hd'))).1
      exact (isTaken_eq_false_iff.1 hfree).1 (heq ▸ List.mem_map_of_mem hd)
  intro d hd
  rcases List.mem_append.1 hd with hd | hd
  · exact hkept d hd
  · obtain ⟨group, hgroup, hd⟩ := Inference.mem_groupsOf hd
    exact hadded d (List.mem_flatten_of_mem hgroup hd)

theorem Arranged.load {decls : List Declaration} {c : Checker} (hc : c.Arranged) (hsound : c.Sound)
    (hu : ((load decls).outcome c).2.inference.supply.Unwrapped)
    (hwhole : ∀ d ∈ decls, d.isWhole = true) : ((load decls).outcome c).2.Arranged := by
  cases hload : (Checker.load decls).outcome c with
  | mk r c' =>
      rw [hload] at hu
      cases r with
      | error e =>
          obtain ⟨_, _, ds, heq, -, hgains⟩ | ⟨_, _, _, _, -, -, heq⟩ := load_outcome decls c
          · cases heq.symm.trans hload
            exact hgains.arranged hc
          · cases heq.symm.trans hload
      | ok _ =>
          rw [load_eq] at hload
          obtain ⟨_, c₁, hfirst, hsecond⟩ := Attempt.returns_bind_iff.1 hload
          have hu₁ := (loadDefinitions_keeps (definitionsOf decls)).unwrapped_of_returns hsecond hu
          obtain ⟨hsound₁, -, -⟩ := (loadInterfaces_keeps decls).of_returns hfirst hu₁ hsound hwhole
          have hgains := (loadInterfaces_registers decls).ofOk hfirst
          exact (hgains.arranged hc).loadDefinitions hsecond hsound₁ hu (isWhole_definitionsOf hwhole)

theorem create_arranged (options : Options) : (create options).Arranged := by
  intro d hd
  rw [create_definitions] at hd
  exact absurd hd List.not_mem_nil

theorem Arranged.serve {c : Checker} (hc : c.Arranged) (hsound : c.Sound) {r : Request}
    (hu : (r.serve.outcome c).2.inference.supply.Unwrapped) : (r.serve.outcome c).2.Arranged := by
  cases r with
  | load name source =>
      show (Attempt.outcome (Attempt.within name _) c).2.Arranged
      have hu : (Attempt.outcome (Attempt.within name _) c).2.inference.supply.Unwrapped := hu
      rw [Attempt.within, Attempt.outcome_adapt] at hu ⊢
      cases hparse : Declaration.parseAll source with
      | ok decls =>
          rw [hparse] at hu
          exact hc.load hsound hu (Declaration.parseAll_isWhole hparse)
      | error e => exact hc
  | check source =>
      obtain ⟨inference, hserve⟩ := exists_inference_check_request c source
      exact hserve ▸ hc
  | evaluate source =>
      obtain ⟨inference, hserve⟩ := exists_inference_evaluate_request c source
      exact hserve ▸ hc

theorem Arranged.after {c : Checker} (hc : c.Arranged) (hsound : c.Sound) {rs : List Request}
    (hu : (c.after rs).inference.supply.Unwrapped) : (c.after rs).Arranged := by
  induction rs generalizing c with
  | nil => exact hc
  | cons r rest ih =>
      have hu₁ := hu.of_le (le_after (r.serve.outcome c).2 rest)
      exact ih (hc.serve hsound hu₁) ((serve_keeps (P := ⊤) r).keeps c hu₁ hsound trivial).1 hu

theorem Reachable.arranged {c : Checker} (h : c.Reachable) (hu : c.inference.supply.Unwrapped) :
    c.Arranged := by
  obtain ⟨options, rs, rfl⟩ := h
  exact (create_arranged options).after (create_sound options (hu.of_le (le_after _ rs))) hu

end Checker

end Formulary
