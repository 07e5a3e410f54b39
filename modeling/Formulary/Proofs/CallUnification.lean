import Formulary.Proofs.Interpretation
import Formulary.StandardLibrary

namespace Formulary

theorem Attempt.outcome_bind_eq_error_iff {σ ε α β : Type} {m : Attempt σ ε α}
    {f : α → Attempt σ ε β} {s s' : σ} {e : ε} :
    (m >>= f).outcome s = (.error e, s') ↔
      m.outcome s = (.error e, s') ∨
        ∃ a s₁, Returns m s a s₁ ∧ (f a).outcome s₁ = (.error e, s') := by
  unfold Returns
  rw [outcome_bind]
  cases m.outcome s with
  | mk r s₁ =>
      cases r with
      | ok a =>
          constructor
          · exact fun hf => .inr ⟨a, s₁, rfl, hf⟩
          · rintro (heq | ⟨a', s₁', heq, hf⟩)
            · cases heq
            · cases heq
              exact hf
      | error e' => simp

namespace Signature

namespace Call

variable {P : Upward} {c : Call}

/-- What building keeps: it changes no constraint, and it finds no dimensions at odds. -/
structure Mild (g : Regime Progress Fault) : Prop where
  holds : ∀ p supply bindings, g.holds p → g.holds ⟨supply, bindings, p.constraints⟩
  allows : ∀ f : Fault, f.kind ≠ .dimensionMismatch → g.allows f

/-- Steps of which no more is asked than what they return. -/
def anyhow : Regime Progress Fault := ⟨fun _ => True, fun _ => True⟩

/-- Steps that find no dimensions at odds. -/
def sparing : Regime Progress Fault := ⟨fun _ => True, fun f => f.kind ≠ .dimensionMismatch⟩

/-- Steps that leave the constraints as they are. -/
def leaving (constraints : List Constraint) : Regime Progress Fault :=
  ⟨fun p => p.constraints = constraints, fun _ => True⟩

theorem anyhow_mild : Mild anyhow := ⟨fun _ _ _ _ => trivial, fun _ _ => trivial⟩

theorem sparing_mild : Mild sparing := ⟨fun _ _ _ _ => trivial, fun _ h => h⟩

theorem leaving_mild (constraints : List Constraint) : Mild (leaving constraints) :=
  ⟨fun _ _ _ h => h, fun _ _ => trivial⟩

theorem upholds_anyhow {α : Type} (m : Interpret α) {φ : Prop} (h : φ) :
    Upholds anyhow m fun _ => φ := by
  refine fun s _ => ⟨trivial, ?_⟩
  cases (Attempt.outcome m s).1 with
  | ok a => exact h
  | error f => trivial

variable {g : Regime Progress Fault}

theorem unboundParam_upholds (hg : Mild g) (mode : Unbound) (name : String) (kind : ParamKind)
    (arg : Nat) : Upholds g (c.unboundParam mode name kind arg) fun _ => True := by
  cases mode with
  | fresh => exact fun s hs => ⟨hg.holds s _ _ hs, trivial⟩
  | refuse =>
      rw [unboundParam]
      refine .ite (fun _ => fun s hs => ⟨hg.holds s _ _ hs, trivial⟩) fun _ => .throw ?_
      exact hg.allows _ (by simp [Fault.kind])

variable {N : String → Ty}

mutual

/-- What is built for a part of the signature shows that the part stands for something, once all
parameters do. -/
theorem build_means (hg : Mild g) (mode : Unbound) (arg : Nat) (hint : ParamKind)
    (e : TypeExpr) : Upholds g (c.build mode arg hint e) fun _ =>
      ∃ t, c.denote (fun name => some (N name)) e = some t := by
  cases e with
  | blank => exact .throw (hg.allows _ (by simp [Fault.kind]))
  | named name =>
      rw [build]
      refine .ite (fun hparam => ?_) fun hparam => ?_
      · refine (Upholds.get (p := fun _ => True) fun _ _ => trivial).bind fun p _ => ?_
        have hmeans : ∃ t, c.denote (fun name => some (N name)) (.named name) = some t :=
          ⟨N name, by rw [denote_named, if_pos hparam]⟩
        dsimp only
        split
        · exact .pure hmeans
        · exact (unboundParam_upholds hg mode name _ arg).imp fun _ _ => hmeans
      · rw [DataTypes.resolveClosed_named]
        refine .ofExcept ?_
        cases hname : c.data.lookupName? name with
        | none => exact hg.allows _ (by simp [Fault.kind, DataTypes.unknownType])
        | some t => exact ⟨t, by rw [denote_named, if_neg hparam, hname]⟩
  | app name args =>
      rw [build]
      refine (buildList_means hg mode arg name 0 args).bind fun ts ⟨us, hus, hlength⟩ => .ofExcept ?_
      cases hresult : c.data.applyName name ts with
      | ok t =>
          obtain ⟨u, hu⟩ := DataTypes.exists_applyName_eq_ok hresult hlength
          exact ⟨u, DataTypes.denote_app_eq_some_iff.2 ⟨us, hus, hu⟩⟩
      | error f =>
          have hends : Ends (fun _ => True) (fun f : Fault => f.kind ≠ .dimensionMismatch)
              (c.data.applyName name ts) := by
            unfold DataTypes.applyName
            split
            · exact .ite (fun _ => trivial) fun _ => by simp [Ends, Fault.kind]
            · split
              · exact .ite (fun _ => trivial) fun _ => by simp [Ends, Fault.kind]
              · simp [Ends, Fault.kind, DataTypes.unknownType]
          rw [hresult] at hends
          exact hg.allows f hends
  | arrow domain codomain =>
      rw [build]
      refine (build_means hg mode arg .type domain).bind fun _ ⟨a, ha⟩ => ?_
      refine (build_means hg mode arg .type codomain).bind fun _ ⟨b, hb⟩ => ?_
      exact .pure ⟨_, DataTypes.denote_arrow_eq_some_iff.2 ⟨a, ha, b, hb, rfl⟩⟩
  | nat value => exact .pure ⟨_, rfl⟩
  | tag value => exact .pure ⟨_, rfl⟩

theorem buildList_means (hg : Mild g) (mode : Unbound) (arg : Nat) (name : String) (i : Nat)
    (es : List TypeExpr) :
    Upholds g (c.buildList mode arg name i es) fun ts =>
      ∃ us, c.denoteList (fun name => some (N name)) es = some us ∧ us.length = ts.length := by
  match es with
  | [] => exact .pure ⟨[], rfl, rfl⟩
  | e :: es =>
      rw [buildList]
      refine (build_means hg mode arg _ e).bind fun _ ⟨t, ht⟩ => ?_
      refine (buildList_means hg mode arg name (i + 1) es).bind fun ts ⟨us, hus, hlength⟩ => .pure ?_
      exact ⟨_, DataTypes.denoteList_cons_eq_some_iff.2 ⟨t, ht, us, hus, rfl⟩,
        congrArg (· + 1) hlength⟩

end

theorem cons_means {pattern : TypeExpr} {patterns : List TypeExpr} {first rest : Interpret Unit}
    (hfirst : Upholds anyhow first fun _ =>
      ∃ t, c.denote (fun name => some (N name)) pattern = some t)
    (hrest : Upholds anyhow rest fun _ =>
      ∃ us, c.denoteList (fun name => some (N name)) patterns = some us) :
    Upholds anyhow
      (do
        first
        rest : Interpret Unit)
      fun _ => ∃ us, c.denoteList (fun name => some (N name)) (pattern :: patterns) = some us := by
  refine hfirst.bind fun _ ⟨t, ht⟩ => hrest.imp fun _ ⟨us, hus⟩ => ?_
  exact ⟨_, DataTypes.denoteList_cons_eq_some_iff.2 ⟨t, ht, us, hus, rfl⟩⟩

mutual

theorem matchType_means (hclash : c.data.NoClash) (arg : Nat) (hint : ParamKind)
    (pattern : TypeExpr) {actual : Ty} (hformed : c.data.Forms actual) :
    Upholds anyhow (c.matchType arg hint pattern actual) fun _ =>
      ∃ t, c.denote (fun name => some (N name)) pattern = some t := by
  have hnamed : ∀ {name : String}, c.isParam name = true → ∀ m : Interpret Unit,
      Upholds anyhow m fun _ =>
        ∃ t, c.denote (fun name => some (N name)) (.named name) = some t :=
    fun hparam m => upholds_anyhow m ⟨_, by rw [denote_named, if_pos hparam]⟩
  have hbuild : ∀ pattern, ∀ f : Ty → Interpret Unit,
      Upholds anyhow (c.build .fresh arg hint pattern >>= f) fun _ =>
        ∃ t, c.denote (fun name => some (N name)) pattern = some t :=
    fun pattern f => (build_means anyhow_mild .fresh arg hint pattern).bind
      fun _ h => upholds_anyhow _ h
  unfold matchType
  split
  · exact .ite (fun hparam => hnamed hparam _) fun _ => hbuild _ _
  · exact hbuild _ _
  · rename_i name _
    refine .ite (fun hparam => hnamed hparam _) fun hparam => ?_
    rw [DataTypes.resolveClosed_named]
    cases hname : c.data.lookupName? name with
    | none => exact fun s _ => ⟨trivial, trivial⟩
    | some t => exact upholds_anyhow _ ⟨t, by rw [denote_named, if_neg hparam, hname]⟩
  · rename_i name params dataName constructor args
    refine .ite (fun hsame => ?_) fun _ => hbuild _ _
    rw [Bool.and_eq_true, decide_eq_true_eq] at hsame
    obtain ⟨hdeclared, hargs⟩ := Ty.formed_data_iff.1 hformed
    refine (matchTypes_means hclash arg name 0 params hargs hsame.2.symm).imp fun _ ⟨us, hus⟩ => ?_
    have hlength : us.length = args.length :=
      (DataTypes.length_of_denoteList hus).trans hsame.2.symm
    exact ⟨_, (denote_app_iff hclash (hlength ▸ hdeclared) hsame.1).2 hus⟩
  · rename_i domain codomain a b
    obtain ⟨ha, hb⟩ := Ty.formed_fn_iff.1 hformed
    refine (matchType_means hclash arg .type domain ha).bind fun _ ⟨t, ht⟩ => ?_
    refine (matchType_means hclash arg .type codomain hb).imp fun _ ⟨u, hu⟩ => ?_
    exact ⟨_, DataTypes.denote_arrow_eq_some_iff.2 ⟨t, ht, u, hu, rfl⟩⟩
  · exact upholds_anyhow _ ⟨_, rfl⟩
  · exact upholds_anyhow _ ⟨_, rfl⟩
  · exact .throw trivial
  · exact hbuild _ _
termination_by sizeOf pattern

theorem matchTypes_means (hclash : c.data.NoClash) (arg : Nat) (name : String) (i : Nat)
    (patterns : List TypeExpr) {actuals : List Ty} (hformed : ∀ t ∈ actuals, c.data.Forms t)
    (hlength : patterns.length = actuals.length) :
    Upholds anyhow (c.matchTypes arg name i patterns actuals) fun _ =>
      ∃ us, c.denoteList (fun name => some (N name)) patterns = some us := by
  match patterns, actuals with
  | [], [] => exact upholds_anyhow _ ⟨[], rfl⟩
  | [], actual :: actuals => simp at hlength
  | pattern :: patterns, [] => simp at hlength
  | pattern :: patterns, actual :: actuals =>
      rw [matchTypes]
      rw [List.forall_mem_cons] at hformed
      exact cons_means (matchType_means hclash arg _ pattern hformed.1)
        (matchTypes_means hclash arg name (i + 1) patterns hformed.2 (Nat.succ.inj hlength))
termination_by sizeOf patterns

end

theorem matchArgs_means (hclash : c.data.NoClash) (i : Nat) {patterns : List TypeExpr}
    {actuals : List Ty} (hformed : ∀ t ∈ actuals, c.data.Forms t)
    (hlength : patterns.length = actuals.length) :
    Upholds anyhow (c.matchArgs i patterns actuals) fun _ =>
      ∃ us, c.denoteList (fun name => some (N name)) patterns = some us := by
  induction patterns generalizing i actuals with
  | nil => exact upholds_anyhow _ ⟨[], rfl⟩
  | cons pattern patterns ih =>
      cases actuals with
      | nil => cases hlength
      | cons actual actuals =>
          rw [matchArgs]
          rw [List.forall_mem_cons] at hformed
          exact cons_means (matchType_means hclash i .type pattern hformed.1)
            (ih (i + 1) hformed.2 (Nat.succ.inj hlength))

/-- Steps that find dimensions at odds only where what they stand for holds of nothing. -/
def Refutes (P : Upward) (m : Interpret Unit) (C : Valuation → Naming → Prop) : Prop :=
  ∀ s f s', Attempt.outcome m s = (.error f, s') → f.kind = .dimensionMismatch →
    (callWatch fun _ => True).sound s → s'.supply.Unwrapped → P s.supply.next →
      ∀ θ D, s.Admits θ D → ¬C θ D

namespace Refutes

variable {P' : Upward} {m : Interpret Unit} {C K : Valuation → Naming → Prop}

theorem of_sparing {p : Unit → Prop} (h : Upholds sparing m p) : Refutes P m C := by
  intro s f s' hrun hkind
  have hends := (h s trivial).2
  rw [hrun] at hends
  exact absurd hkind hends

theorem congr (h : Refutes P m C)
    (hC : ∀ n, P n → ∀ θ D, K θ D → C θ D) : Refutes P m K :=
  fun s f s' hrun hkind hs hs' hpre θ D hθ hk =>
    h s f s' hrun hkind hs hs' hpre θ D hθ (hC _ hpre θ D hk)

theorem of_pre (h : Refutes P m C) (hP : ∀ n, P' n → P n) : Refutes P' m C :=
  fun s f s' hrun hkind hs hs' hpre => h s f s' hrun hkind hs hs' (hP _ hpre)

/-- If the first steps succeed, what they leave open still holds what both stand for. -/
theorem before {f : Unit → Interpret Unit} (hm : Refutes P' m C)
    (hfinds : Finds callView P' m (fun _ => ⊤) (fun _ _ => ()) fun θ D _ => C θ D)
    (hP : ∀ n, P n → P' n) (hgrows : ∀ s, s.supply ≤ (Attempt.outcome (f ()) s).2.supply)
    (hf : Refutes P (f ()) K)
    (hlocal : ∀ n, P n → ∀ θ θ', Valuation.AgreesBelow n θ θ' → K θ = K θ') :
    Refutes P (m >>= f) fun θ D => C θ D ∧ K θ D := by
  intro s g s' hrun hkind hs hs' hpre θ D hθ hboth
  obtain hfirst | ⟨a, s₁, hfirst, hrest⟩ := Attempt.outcome_bind_eq_error_iff.1 hrun
  · exact hm s g s' hfirst hkind hs hs' (hP _ hpre) θ D hθ hboth.1
  · have hle : s₁.supply ≤ (Attempt.outcome (f ()) s₁).2.supply := hgrows s₁
    rw [hrest] at hle
    have hs₁ : s₁.supply.Unwrapped := hs'.of_le hle
    obtain ⟨hsound, -, hnext⟩ := hfinds.toKeeps.of_returns hfirst hs₁ hs (hP _ hpre)
    obtain ⟨θ', hagree, hθ', -⟩ :=
      (hfinds.finds s a s₁ hfirst hs hs₁ (hP _ hpre)).complete θ D () hθ hboth.1
    refine hf s₁ g s' hrest hkind hsound hs' (P.mono hnext hpre) θ' D hθ' ?_
    rw [← hlocal _ hpre θ θ' hagree]
    exact hboth.2

end Refutes

theorem bindParam_refutes (c : Call) (name : String) (hint : ParamKind) (actual : Ty) (arg : Nat) :
    Refutes actual.inScope (c.bindParam name hint actual arg)
      fun θ D => D name = some (actual.bind θ) := by
  intro s f s' hrun hkind hs _ hpre θ D hθ hD
  unfold bindParam at hrun
  rw [Attempt.outcome_bind, Attempt.outcome_get] at hrun
  cases hname : s.bindings.get? name with
  | none =>
      simp only [hname] at hrun
      split at hrun
      · cases hrun
      · cases hrun
        cases hkind
  | some earlier =>
      simp only [hname] at hrun
      split at hrun
      · cases hrun
      · rename_i hsame
        split at hrun
        · cases hrun
        · rename_i hground
          rw [Bool.or_eq_true, Bool.not_eq_true', Bool.not_eq_true', not_or, Bool.not_eq_false,
            Bool.not_eq_false] at hground
          -- Both are known in full, so no valuation makes them the same.
          have hbound := hθ.bindings name earlier hname
          rw [hD, Option.some.injEq, Ty.bind_of_isGround hground.1,
            Ty.bind_of_isGround hground.2] at hbound
          rw [hbound, Ty.same_self (hbound ▸ hpre.1)] at hsame
          exact hsame rfl

theorem constrain_sparing (expected actual : Ty) (arg : Nat) :
    Upholds sparing (constrain expected actual arg) fun _ => True := fun _ _ => ⟨trivial, trivial⟩

theorem require_sparing (c : Call) (expected actual : Ty) (arg : Nat) :
    Upholds sparing (c.require expected actual arg) fun _ => True := by
  unfold require
  refine .ite (fun _ => .ite (fun _ => .pure trivial) fun _ => .throw ?_) fun _ =>
    constrain_sparing expected actual arg
  simp [sparing, Fault.kind]

theorem build_sparing (c : Call) (mode : Unbound) (arg : Nat) (hint : ParamKind) (e : TypeExpr) :
    Upholds sparing (c.build mode arg hint e) fun _ => True :=
  (build_means (N := fun _ => .blank) sparing_mild mode arg hint e).imp fun _ _ => trivial

theorem cons_refutes {pattern : TypeExpr} {patterns : List TypeExpr} {actual : Ty}
    {actuals : List Ty} {first rest : Interpret Unit}
    (hfirst : Refutes (c.Actual actual) first
      fun θ D => c.denote D pattern = some (actual.bind θ))
    (hfinds : Finds callView (c.Actual actual) first (fun _ => ⊤) (fun _ _ => ())
      fun θ D _ => c.denote D pattern = some (actual.bind θ))
    (hgrows : ∀ s, s.supply ≤ (Attempt.outcome rest s).2.supply)
    (hrest : Refutes (Every c.Actual actuals) rest
      fun θ D => c.denoteList D patterns = some (actuals.map (·.bind θ))) :
    Refutes (Every c.Actual (actual :: actuals))
      (do
        first
        rest)
      fun θ D => c.denoteList D (pattern :: patterns) =
        some ((actual :: actuals).map (·.bind θ)) := by
  refine (hfirst.before (K := fun θ D => c.denoteList D patterns = some (actuals.map (·.bind θ)))
    hfinds (fun n h => (every_cons.1 h).1) hgrows (hrest.of_pre fun n h => (every_cons.1 h).2)
    fun n h θ θ' hagree => ?_).congr fun n h θ D hdenote => ?_
  · have hscope : Every Ty.inScope actuals n := fun t ht => ((every_cons.1 h).2 t ht).1
    rw [hagree.map_bind_eq hscope]
  · obtain ⟨t, ht, us, hus, heq⟩ := DataTypes.denoteList_cons_eq_some_iff.1 hdenote
    rw [List.map_cons, List.cons.injEq] at heq
    exact ⟨heq.1 ▸ ht, heq.2 ▸ hus⟩

mutual

theorem matchType_refutes (hclash : c.data.NoClash) (arg : Nat) (hint : ParamKind)
    (pattern : TypeExpr) (actual : Ty) :
    Refutes (c.Actual actual) (c.matchType arg hint pattern actual)
      fun θ D => c.denote D pattern = some (actual.bind θ) := by
  have hnamed : ∀ {name : String}, c.isParam name = true → ∀ actual : Ty,
      Refutes (c.Actual actual) (c.bindParam name hint actual arg)
        fun θ D => c.denote D (.named name) = some (actual.bind θ) := fun hparam actual =>
    ((c.bindParam_refutes _ hint actual arg).of_pre fun n (h : c.Actual actual n) => h.1).congr
      fun n _ θ D h => by rwa [denote_named, if_pos hparam] at h
  have hconstrain : ∀ (pattern : TypeExpr) (actual : Ty), Upholds sparing
      (c.build .fresh arg hint pattern >>= fun expected => constrain expected actual arg)
      fun _ => True := fun pattern actual =>
    (c.build_sparing .fresh arg hint pattern).bind fun t _ => constrain_sparing t actual arg
  have hmismatch : ∀ (pattern : TypeExpr) (actual : Ty), Upholds sparing
      (c.mismatch pattern hint actual arg) fun _ => True := fun pattern actual =>
    (c.build_sparing .fresh arg hint pattern).bind fun t _ => .throw (by simp [sparing, Fault.kind])
  unfold matchType
  split
  · split
    · rename_i hparam
      exact hnamed hparam _
    · exact .of_sparing (hconstrain _ _)
  · exact .of_sparing (hconstrain _ _)
  · rename_i name _
    split
    · rename_i hparam
      exact hnamed hparam _
    · refine .of_sparing (p := fun _ => True) (Upholds.bind (p := fun _ => True) (.ofExcept ?_)
        fun t _ => c.require_sparing t actual arg)
      rw [DataTypes.resolveClosed_named]
      cases c.data.lookupName? name with
      | none => simp [Ends, sparing, Fault.kind, DataTypes.unknownType]
      | some t => trivial
  · rename_i name params dataName constructor args
    split
    · rename_i hsame
      rw [Bool.and_eq_true, decide_eq_true_eq] at hsame
      refine ((matchTypes_refutes hclash arg name 0 params args hsame.2.symm).of_pre
        fun n (h : c.Actual (.data dataName constructor args) n) t ht => ?_).congr
          fun n h θ D hdenote => ?_
      · exact ⟨Ty.within_data.1 h.1 t ht, (Ty.formed_data_iff.1 h.2).2 t ht⟩
      · exact (denote_app_bind_iff hclash (Ty.formed_data_iff.1 h.2).1 hsame.1).1 hdenote
    · exact .of_sparing (hmismatch _ _)
  · rename_i domain codomain a b
    refine ((matchType_refutes hclash arg .type domain a).before
      (K := fun θ D => c.denote D codomain = some (b.bind θ))
      (matchType_finds hclash arg .type domain a)
      (fun n (h : c.Actual (.fn a b) n) =>
        ⟨(Ty.within_fn.1 h.1).1, (Ty.formed_fn_iff.1 h.2).1⟩) ?_ ?_ ?_).congr
        fun n h θ D hdenote => ?_
    · exact fun s => (matchType_finds hclash arg .type codomain b).grows s
    · exact (matchType_refutes hclash arg .type codomain b).of_pre
        fun n (h : c.Actual (.fn a b) n) => ⟨(Ty.within_fn.1 h.1).2, (Ty.formed_fn_iff.1 h.2).2⟩
    · intro n h θ θ' hagree
      rw [hagree.bind_eq (Ty.within_fn.1 h.1).2]
    · obtain ⟨t, ht, u, hu, heq⟩ := DataTypes.denote_arrow_eq_some_iff.1 hdenote
      rw [Ty.bind, Ty.fn.injEq] at heq
      exact ⟨heq.1 ▸ ht, heq.2 ▸ hu⟩
  · exact .of_sparing (c.require_sparing _ _ arg)
  · exact .of_sparing (c.require_sparing _ _ arg)
  · exact .of_sparing (p := fun _ => True) (.throw (by simp [sparing, Fault.kind]))
  · exact .of_sparing (hmismatch _ _)
termination_by sizeOf pattern

theorem matchTypes_refutes (hclash : c.data.NoClash) (arg : Nat) (name : String) (i : Nat)
    (patterns : List TypeExpr) (actuals : List Ty) (hlength : patterns.length = actuals.length) :
    Refutes (Every c.Actual actuals) (c.matchTypes arg name i patterns actuals)
      fun θ D => c.denoteList D patterns = some (actuals.map (·.bind θ)) := by
  match patterns, actuals with
  | [], [] =>
      rw [matchTypes]
      · exact .of_sparing (p := fun _ => True) (.pure trivial)
      · simp
  | [], actual :: actuals => simp at hlength
  | pattern :: patterns, [] => simp at hlength
  | pattern :: patterns, actual :: actuals =>
      rw [matchTypes]
      have hlength := Nat.succ.inj hlength
      exact cons_refutes (matchType_refutes hclash arg _ pattern actual)
        (matchType_finds hclash arg _ pattern actual)
        (fun s => (matchTypes_finds hclash arg name (i + 1) patterns actuals hlength).grows s)
        (matchTypes_refutes hclash arg name (i + 1) patterns actuals hlength)
termination_by sizeOf patterns

end

theorem matchArgs_refutes (hclash : c.data.NoClash) (i : Nat) {patterns : List TypeExpr}
    {actuals : List Ty} (hlength : patterns.length = actuals.length) :
    Refutes (Every c.Actual actuals) (c.matchArgs i patterns actuals)
      fun θ D => c.denoteList D patterns = some (actuals.map (·.bind θ)) := by
  induction patterns generalizing i actuals with
  | nil =>
      cases actuals with
      | nil =>
          rw [matchArgs]
          · exact .of_sparing (p := fun _ => True) (.pure trivial)
          · simp
      | cons actual actuals => cases hlength
  | cons pattern patterns ih =>
      cases actuals with
      | nil => cases hlength
      | cons actual actuals =>
          rw [matchArgs]
          have hlength := Nat.succ.inj hlength
          exact cons_refutes (matchType_refutes hclash i .type pattern actual)
            (matchType_finds hclash i .type pattern actual)
            (fun s => (matchArgs_finds hclash (i + 1) hlength).grows s) (ih (i + 1) hlength)

/-- A variable stands for each parameter. -/
def numbered (v : String → Int) : Naming := fun name => some (.var (v name))

theorem exists_denote_of_interpret (hclash : c.data.NoClash) {u u' : Supply} {o : Outcome}
    (hformed : ∀ t ∈ c.args, c.data.Forms t) (hrun : Attempt.Returns c.interpret u o u')
    (v : String → Int) :
    ∃ ts t, c.denoteList (numbered v) c.operation.signature.splitArrow.1 = some ts ∧
      c.denote (numbered v) c.operation.signature.splitArrow.2 = some t := by
  obtain ⟨hlength, s', hwalk, -⟩ := returns_interpret_iff.1 hrun
  obtain ⟨t, hreckon, -⟩ := returns_walk_iff.1 hwalk
  have hmeans : Upholds anyhow c.reckon fun _ =>
      ∃ ts t, c.denoteList (numbered v) c.operation.signature.splitArrow.1 = some ts ∧
        c.denote (numbered v) c.operation.signature.splitArrow.2 = some t := by
    refine (matchArgs_means (N := fun name => .var (v name)) hclash 0 hformed hlength).bind
      fun _ ⟨ts, hts⟩ => ?_
    refine (build_means (N := fun name => .var (v name)) anyhow_mild _ _ _ _).imp
      fun _ ⟨t, ht⟩ => ?_
    exact ⟨ts, t, hts, ht⟩
  have hends := (hmeans ⟨u, ∅, []⟩ trivial).2
  rwa [hreckon] at hends

theorem exists_unifies_of_denote {v : String → Int} (hv : Apart v c.args) {θ : Valuation}
    {D : Naming} {t r : Ty} {ps : List Ty}
    (hparams : c.denoteList D c.operation.signature.splitArrow.1 = some (c.args.map (·.bind θ)))
    (hresult : c.denote D c.operation.signature.splitArrow.2 = some t)
    (hps : c.denoteList (numbered v) c.operation.signature.splitArrow.1 = some ps)
    (hr : c.denote (numbered v) c.operation.signature.splitArrow.2 = some r) :
    ∃ θ' : Valuation, ps.map (·.bind θ') = c.args.map (·.bind θ') ∧ r.bind θ' = t := by
  have hmono : ∀ name u, D name = some u →
      (numbered v name).map (·.bind (Function.extend v (fun name => (D name).getD .blank) θ)) =
        some u := fun name u hu => by
    rw [numbered, Option.map_some, hv.bind_var_extend, hu, Option.getD_some]
  have hparams' := (c.denoteList_bind (numbered v) _ _).symm.trans
    (DataTypes.denoteList_mono hmono hparams)
  have hresult' := (c.denote_bind (numbered v) _ _).symm.trans (DataTypes.denote_mono hmono hresult)
  rw [hps, Option.map_some, Option.some.injEq] at hparams'
  rw [hr, Option.map_some, Option.some.injEq] at hresult'
  exact ⟨_, hparams'.trans (hv.map_bind_extend _ θ).symm, hresult'⟩

theorem isMono_of_numbered {v : String → Int} {e : TypeExpr} {t : Ty}
    (h : c.denote (numbered v) e = some t) : t.isMono = true := by
  refine (DataTypes.within_of_denote (F := fun _ => True) (fun name u hmem => ?_)
    (fun name u hu => ?_) h).1
  · obtain ⟨p, -, heq⟩ := List.mem_map.1 hmem
    cases heq
  · cases hu
    exact Ty.within_var trivial

theorem isMono_of_numberedList {v : String → Int} {es : List TypeExpr} {ts : List Ty}
    (h : c.denoteList (numbered v) es = some ts) : Ty.isMonoList ts = true := by
  refine Ty.isMonoList_iff.2 fun t ht => (DataTypes.within_of_denoteList (F := fun _ => True)
    (fun name u hmem => ?_) (fun name u hu => ?_) h t ht).1
  · obtain ⟨p, -, heq⟩ := List.mem_map.1 hmem
    cases heq
  · cases hu
    exact Ty.within_var trivial

end Call

namespace Outcome

variable {o : Outcome} {n : Int} {s : Subst}

/-- Unifies what a call leaves to unify. -/
def solve (o : Outcome) : Except UnifyError Subst :=
  Ty.unifyList (o.constraints.map (·.expected)) (o.constraints.map (·.actual))

theorem solved_iff {θ : Valuation} : o.Solved θ ↔
    (o.constraints.map (·.expected)).map (·.bind θ) =
      (o.constraints.map (·.actual)).map (·.bind θ) := by
  rw [List.map_map, List.map_map, List.map_inj_left]
  rfl

theorem isMono_constraints (h : o.inScope n) :
    Ty.isMonoList (o.constraints.map (·.expected)) = true ∧
      Ty.isMonoList (o.constraints.map (·.actual)) = true := by
  constructor
  · refine Ty.isMonoList_iff.2 (List.forall_mem_map.2 fun k hk => (h.2 k hk).1.1)
  · refine Ty.isMonoList_iff.2 (List.forall_mem_map.2 fun k hk => (h.2 k hk).2.1)

theorem exists_solve_of_solved (h : o.inScope n) {θ : Valuation} (hθ : o.Solved θ) :
    ∃ s, o.solve = .ok s :=
  Ty.exists_unifyList_eq_ok (isMono_constraints h).1 (isMono_constraints h).2 (solved_iff.1 hθ)

theorem solve_mostGeneral (h : o.inScope n) (hs : o.solve = .ok s) :
    s.MostGeneral (Ty.freeOccurrencesList (o.constraints.map (·.expected)) ++
        Ty.freeOccurrencesList (o.constraints.map (·.actual)))
      ((o.constraints.map (·.expected)).zip (o.constraints.map (·.actual))) :=
  Ty.unifyList_mostGeneral (isMono_constraints h).1 (isMono_constraints h).2 (by simp) hs

theorem solved_iff_unifies {θ : Valuation} : o.Solved θ ↔
    Unifies θ ((o.constraints.map (·.expected)).zip (o.constraints.map (·.actual))) := by
  rw [unifies_zip (by simp), Ty.bindList_eq_map, Ty.bindList_eq_map, solved_iff]

end Outcome

namespace Call

variable {c : Call} {u : Supply} {v : String → Int}

theorem solve_agrees (hclash : c.data.NoClash) (hstrict : c.lenient = false)
    (hargs : Every c.Actual c.args u.next) (hv : Apart v c.args) {o : Outcome} {u' : Supply}
    (hrun : Attempt.Returns c.interpret u o u') (hu : u'.Unwrapped) {ps : List Ty} {r : Ty}
    (hps : c.denoteList (numbered v) c.operation.signature.splitArrow.1 = some ps)
    (hr : c.denote (numbered v) c.operation.signature.splitArrow.2 = some r) :
    ((∃ s, o.solve = .ok s) ↔ ∃ m, Ty.unifyList ps c.args = .ok m) ∧
      ∀ s m, o.solve = .ok s → Ty.unifyList ps c.args = .ok m →
        ∃ ρ : Equiv.Perm Int, s.apply o.type = (m.apply r).rename ρ := by
  have hscope := inScope_of_interpret hclash hstrict hargs hrun hu
  obtain ⟨hsound, hcomplete⟩ := interpret_explains hclash hstrict hargs hrun hu
  have hargsMono : Ty.isMonoList c.args = true := Ty.isMonoList_iff.2 fun t ht => (hargs t ht).1.1
  have hpsMono := isMono_of_numberedList hps
  have hlength : ps.length = c.args.length :=
    (DataTypes.length_of_denoteList hps).trans (returns_interpret_iff.1 hrun).1
  have hforth : ∀ θ, o.Solved θ → ∃ θ' : Valuation,
      ps.map (·.bind θ') = c.args.map (·.bind θ') ∧ r.bind θ' = o.type.bind θ := fun θ hθ => by
    obtain ⟨D, hparams, hresult⟩ := hsound θ hθ
    exact exists_unifies_of_denote hv hparams hresult hps hr
  have hback : ∀ θ : Valuation, ps.map (·.bind θ) = c.args.map (·.bind θ) →
      ∃ θ', o.Solved θ' ∧ o.type.bind θ' = r.bind θ := fun θ hθ => by
    have hparams := c.denoteList_bind (numbered v) θ c.operation.signature.splitArrow.1
    have hresult := c.denote_bind (numbered v) θ c.operation.signature.splitArrow.2
    rw [hps, Option.map_some, hθ] at hparams
    rw [hr, Option.map_some] at hresult
    exact hcomplete θ _ _ hparams hresult
  have hsolved : ∀ {s}, o.solve = .ok s → o.Solved s.image := fun hs =>
    Outcome.solved_iff_unifies.2 (Outcome.solve_mostGeneral hscope hs).unifies
  have hunified : ∀ {m}, Ty.unifyList ps c.args = .ok m →
      ps.map (·.bind m.image) = c.args.map (·.bind m.image) := fun hm => by
    rw [← Subst.map_apply, ← Subst.map_apply]
    exact map_apply_of_unifyList hpsMono hargsMono hlength hm
  refine ⟨⟨?_, ?_⟩, ?_⟩
  · rintro ⟨s, hs⟩
    obtain ⟨θ, hθ, -⟩ := hforth _ (hsolved hs)
    exact Ty.exists_unifyList_eq_ok hpsMono hargsMono hθ
  · rintro ⟨m, hm⟩
    obtain ⟨θ, hθ, -⟩ := hback _ (hunified hm)
    exact Outcome.exists_solve_of_solved hscope hθ
  · intro s m hs hm
    have hmost := Ty.unifyList_mostGeneral hpsMono hargsMono hlength hm
    have hrMono := isMono_of_numbered hr
    obtain ⟨θ, hθ, hvalue⟩ := hforth _ (hsolved hs)
    obtain ⟨θ', hθ', hvalue'⟩ := hback _ (hunified hm)
    -- Each of the two results is an instance of the other.
    refine Ty.exists_rename_of_instances (f := θ) (g := θ') (Subst.isMono_apply hmost.mono hrMono)
      ?_ ?_
    · rw [hmost.bind_apply ((unifies_zip hlength).2 ?_) hrMono, hvalue, Subst.apply_eq_bind]
      rwa [Ty.bindList_eq_map, Ty.bindList_eq_map]
    · rw [(Outcome.solve_mostGeneral hscope hs).bind_apply (Outcome.solved_iff_unifies.1 hθ')
        hscope.1.1, hvalue', Subst.apply_eq_bind]

theorem matchArgs_of_dimensionMismatch {f : Fault} {u' : Supply}
    (hrun : Attempt.outcome c.interpret u = (.error f, u')) (hkind : f.kind = .dimensionMismatch) :
    c.operation.signature.splitArrow.1.length = c.args.length ∧
      ∃ s', Attempt.outcome (c.matchArgs 0 c.operation.signature.splitArrow.1 c.args) ⟨u, ∅, []⟩ =
        (.error f, s') ∧ s'.supply = u' := by
  rw [outcome_interpret] at hrun
  split at hrun
  · cases hrun
    cases hkind
  · rename_i hlength
    obtain ⟨hfault, hsupply⟩ := Prod.mk.inj hrun
    have hwalk : Attempt.outcome c.walk ⟨u, ∅, []⟩ =
        (.error f, (Attempt.outcome c.walk ⟨u, ∅, []⟩).2) := Prod.ext hfault rfl
    refine ⟨not_not.1 hlength, _, ?_, hsupply⟩
    obtain hmatch | ⟨a, s₁, -, hrest⟩ := Attempt.outcome_bind_eq_error_iff.1 hwalk
    · exact hmatch
    · -- What is left to do builds the type of the result.
      have hbuild : Upholds sparing (do
          let t ← c.build .refuse c.args.length .type c.operation.signature.splitArrow.2
          let p ← get
          return (⟨t, p.bindings, p.constraints⟩ : Outcome)) fun _ => True :=
        (c.build_sparing _ _ _ _).bind fun t _ =>
          (Upholds.get (p := fun _ => True) fun _ _ => trivial).bind fun p _ => .pure trivial
      have hends := (hbuild s₁ trivial).2
      rw [hrest] at hends
      exact absurd hkind hends

theorem not_denote_of_dimensionMismatch (hclash : c.data.NoClash)
    (hargs : Every c.Actual c.args u.next) {f : Fault} {u' : Supply}
    (hrun : Attempt.outcome c.interpret u = (.error f, u')) (hu : u'.Unwrapped)
    (hkind : f.kind = .dimensionMismatch) (θ : Valuation) (D : Naming) :
    c.denoteList D c.operation.signature.splitArrow.1 ≠ some (c.args.map (·.bind θ)) := by
  obtain ⟨hlength, s', hmatch, rfl⟩ := matchArgs_of_dimensionMismatch hrun hkind
  exact matchArgs_refutes hclash 0 hlength _ f s' hmatch hkind (sound_start u) hu hargs θ D
    (Progress.admits_start u θ D)

/-- Interpreting a call agrees with unifying its arguments with the parameter types, where each
parameter is a variable of its own. What a strict call leaves to unify has a solution just when these
have one, and gives the result the same type; and dimensions are told to be at odds only where there
is no solution. -/
theorem interpret_agrees_with_unification (c : Call) (hclash : c.data.NoClash) {u : Supply}
    (hargs : ∀ t ∈ c.args, t.inScope u.next ∧ c.data.Forms t)
    (hu : (Attempt.outcome c.interpret u).2.Unwrapped) :
    (∃ v : String → Int, Apart v c.args) ∧ ∀ v, Apart v c.args →
      (c.lenient = false → ∀ o, (Attempt.outcome c.interpret u).1 = .ok o →
        ∃ ps r, c.denoteList (numbered v) c.operation.signature.splitArrow.1 = some ps ∧
          c.denote (numbered v) c.operation.signature.splitArrow.2 = some r ∧
          ((∃ s, o.solve = .ok s) ↔ ∃ m, Ty.unifyList ps c.args = .ok m) ∧
          ∀ s m, o.solve = .ok s → Ty.unifyList ps c.args = .ok m →
            ∃ ρ : Equiv.Perm Int, s.apply o.type = (m.apply r).rename ρ) ∧
      ∀ f, (Attempt.outcome c.interpret u).1 = .error f → f.kind = .dimensionMismatch →
        ∀ ps, c.denoteList (numbered v) c.operation.signature.splitArrow.1 = some ps →
          ∀ m, Ty.unifyList ps c.args ≠ .ok m := by
  have := countable_string
  refine ⟨exists_apart _ c.args, fun v hv => ⟨?_, ?_⟩⟩
  · intro hstrict o hrun
    have hreturns := Attempt.returns_of_fst hrun
    obtain ⟨ps, r, hps, hr⟩ :=
      exists_denote_of_interpret hclash (fun t ht => (hargs t ht).2) hreturns v
    exact ⟨ps, r, hps, hr, solve_agrees hclash hstrict hargs hv hreturns hu hps hr⟩
  · intro f hrun hkind ps hps m hm
    have hfails : Attempt.outcome c.interpret u = (.error f, (Attempt.outcome c.interpret u).2) :=
      Prod.ext hrun rfl
    have hlength : ps.length = c.args.length :=
      (DataTypes.length_of_denoteList hps).trans (matchArgs_of_dimensionMismatch hfails hkind).1
    have hargsMono : Ty.isMonoList c.args = true := Ty.isMonoList_iff.2 fun t ht => (hargs t ht).1.1
    have hparams := c.denoteList_bind (numbered v) m.image c.operation.signature.splitArrow.1
    rw [hps, Option.map_some, ← Subst.map_apply,
      map_apply_of_unifyList (isMono_of_numberedList hps) hargsMono hlength hm,
      Subst.map_apply] at hparams
    exact not_denote_of_dimensionMismatch hclash hargs hfails hu hkind m.image _ hparams

/-- Matrices, and how they are multiplied. -/
def matrices : Registry :=
  ⟨⟨dataTypesOf StandardLibrary.dataTypes⟩, [StandardLibrary.matrixMultipliable], []⟩

def matrix (rows columns element : Ty) : Ty := .data Ty.metaName "Matrix" [rows, columns, element]

/-- The product of two matrices. -/
def product (left right : Ty) : Call :=
  { registry := matrices
    interface := StandardLibrary.matrixMultipliable
    operation := ⟨"multiply", .arrow (StandardLibrary.matrixType "m" "n")
      (.arrow (StandardLibrary.matrixType "n" "p") (StandardLibrary.matrixType "m" "p")), false⟩
    args := [left, right]
    lenient := false }

/-- A product where the width of the left matrix, and the height and the elements of the right one,
are not known yet. -/
def openProduct : Call :=
  product (matrix (.nat 2) (.var 0) .scalar) (matrix (.var 1) (.nat 3) (.var 2))

/-- A product of matrices that do not fit. -/
def unevenProduct : Call :=
  product (matrix (.nat 2) (.nat 2) .scalar) (matrix (.nat 3) (.nat 2) .scalar)

theorem noClash_matrices : matrices.data.NoClash := by
  refine DataTypes.noClash_iff.2 ?_
  simp only [matrices, StandardLibrary.dataTypes, dataTypesOf, Declaration.dataType?,
    List.filterMap_cons, List.filterMap_nil, List.forall_mem_cons, List.not_mem_nil, false_imp_iff,
    implies_true, and_true]
  cbv

theorem forms_scalar : matrices.data.Forms .scalar :=
  Ty.formed_scalar (.inr ⟨rfl, ⟨"Scalar", []⟩, rfl, rfl⟩)

theorem forms_matrix {rows columns element : Ty}
    (h : ∀ t ∈ [rows, columns, element], matrices.data.Forms t) :
    matrices.data.Forms (matrix rows columns element) :=
  Ty.formed_data_iff.2 ⟨.inr ⟨rfl, ⟨"Matrix", [⟨some "m", .named "Nat"⟩, ⟨some "n", .named "Nat"⟩,
    ⟨some "T", .named "Type"⟩]⟩, rfl, rfl⟩, h⟩

theorem actual_scalar {n : Int} : Ty.scalar.inScope n ∧ matrices.data.Forms .scalar :=
  ⟨⟨rfl, fun _ h => absurd h List.not_mem_nil⟩, forms_scalar⟩

theorem actual_nat {n : Int} (value : Int) :
    (Ty.nat value).inScope n ∧ matrices.data.Forms (.nat value) :=
  ⟨⟨rfl, fun _ h => absurd h List.not_mem_nil⟩, Ty.formed_nat value⟩

theorem actual_matrix {n : Int} {rows columns element : Ty}
    (h : ∀ t ∈ [rows, columns, element], t.inScope n ∧ matrices.data.Forms t) :
    (matrix rows columns element).inScope n ∧ matrices.data.Forms (matrix rows columns element) :=
  ⟨Ty.within_data.2 fun t ht => (h t ht).1, forms_matrix fun t ht => (h t ht).2⟩

set_option maxRecDepth 10000 in
theorem interpret_agrees_with_unification_product :
    (∃ o v ps r m, (Attempt.outcome openProduct.interpret (.startingAt 3)).1 = .ok o ∧
      Apart v openProduct.args ∧
      openProduct.denoteList (numbered v) openProduct.operation.signature.splitArrow.1 = some ps ∧
      openProduct.denote (numbered v) openProduct.operation.signature.splitArrow.2 = some r ∧
      Ty.unifyList ps openProduct.args = .ok m ∧
      ∃ ρ : Equiv.Perm Int, matrix (.nat 2) (.nat 3) .scalar = (m.apply r).rename ρ) ∧
    ∃ v, Apart v unevenProduct.args ∧
      ∀ ps, unevenProduct.denoteList (numbered v)
          unevenProduct.operation.signature.splitArrow.1 = some ps →
        ∀ m, Ty.unifyList ps unevenProduct.args ≠ .ok m := by
  constructor
  · have hrun : Attempt.outcome openProduct.interpret (.startingAt 3) =
        ((Attempt.outcome openProduct.interpret (.startingAt 3)).1, ⟨3, 0, 0⟩) := rfl
    have hvalue : (Attempt.outcome openProduct.interpret (.startingAt 3)).1.toOption.map
        (fun o => o.solve.toOption.map (·.apply o.type)) =
          some (some (matrix (.nat 2) (.nat 3) .scalar)) := by cbv
    have hargs : ∀ t ∈ openProduct.args,
        t.inScope (Supply.startingAt 3).next ∧ matrices.data.Forms t := by
      refine List.forall_mem_cons.2 ⟨?_, List.forall_mem_singleton.2 ?_⟩
      · refine actual_matrix (List.forall_mem_cons.2 ⟨?_, List.forall_mem_cons.2 ⟨?_, ?_⟩⟩)
        · exact actual_nat 2
        · exact ⟨⟨rfl, by decide⟩, Ty.formed_var 0⟩
        · exact List.forall_mem_singleton.2 actual_scalar
      · refine actual_matrix (List.forall_mem_cons.2 ⟨?_, List.forall_mem_cons.2 ⟨?_, ?_⟩⟩)
        · exact ⟨⟨rfl, by decide⟩, Ty.formed_var 1⟩
        · exact actual_nat 3
        · exact List.forall_mem_singleton.2 ⟨⟨rfl, by decide⟩, Ty.formed_var 2⟩
    obtain ⟨⟨v, hv⟩, hagrees⟩ := interpret_agrees_with_unification openProduct noClash_matrices hargs
      (hrun ▸ by decide)
    cases hresult : (Attempt.outcome openProduct.interpret (.startingAt 3)).1 with
    | error f =>
        rw [hresult] at hvalue
        cases hvalue
    | ok o =>
        obtain ⟨ps, r, hps, hr, hsolve, htype⟩ := (hagrees v hv).1 rfl o hresult
        rw [hresult] at hvalue
        have hvalue : o.solve.toOption.map (·.apply o.type) =
            some (matrix (.nat 2) (.nat 3) .scalar) := Option.some.inj hvalue
        cases hs : o.solve with
        | error e =>
            rw [hs] at hvalue
            cases hvalue
        | ok s =>
            rw [hs] at hvalue
            have hvalue : s.apply o.type = matrix (.nat 2) (.nat 3) .scalar := Option.some.inj hvalue
            obtain ⟨m, hm⟩ := hsolve.1 ⟨s, hs⟩
            exact ⟨o, v, ps, r, m, rfl, hv, hps, hr, hm, hvalue ▸ htype s m hs hm⟩
  · have hrun : Attempt.outcome unevenProduct.interpret (.startingAt 0) =
        (.error (.inconsistentDims (.operation "MatrixMultipliable" "multiply") (.nat 2) (.nat 3)
          ("(2,2)", "(3,2)")), ⟨0, 0, 0⟩) := rfl
    have hargs : ∀ t ∈ unevenProduct.args,
        t.inScope (Supply.startingAt 0).next ∧ matrices.data.Forms t := by
      refine List.forall_mem_cons.2 ⟨?_, List.forall_mem_singleton.2 ?_⟩
      all_goals exact actual_matrix (List.forall_mem_cons.2 ⟨actual_nat _,
        List.forall_mem_cons.2 ⟨actual_nat _, List.forall_mem_singleton.2 actual_scalar⟩⟩)
    obtain ⟨⟨v, hv⟩, hagrees⟩ := interpret_agrees_with_unification unevenProduct noClash_matrices
      hargs (hrun ▸ by decide)
    exact ⟨v, hv, (hagrees v hv).2 _ (congrArg Prod.fst hrun) rfl⟩

/-- The largest number is handed out before the least, so that the variable for the elements of the
matrices may be one of the arguments. Then what is left to unify has no solution, though the
parameter types and the arguments have one. -/
theorem interpret_overrun :
    let inner := matrix (.nat 1) (.nat 1) (.var (-2 ^ 63 + 1))
    let c := product (.var 0) (matrix (.nat 3) (.nat 2) inner)
    let u := Supply.startingAt (2 ^ 63 - 1)
    c.data.NoClash ∧ (∀ t ∈ c.args, t.inScope u.next ∧ c.data.Forms t) ∧ c.lenient = false ∧
      ∃ v o ps, Apart v c.args ∧ (Attempt.outcome c.interpret u).1 = .ok o ∧
        c.denoteList (numbered v) c.operation.signature.splitArrow.1 = some ps ∧
        (∀ s, o.solve ≠ .ok s) ∧ ∃ m, Ty.unifyList ps c.args = .ok m := by
  intro inner c u
  have hinner : inner.inScope u.next ∧ c.data.Forms inner :=
    actual_matrix (List.forall_mem_cons.2 ⟨actual_nat 1, List.forall_mem_cons.2 ⟨actual_nat 1,
      List.forall_mem_singleton.2 ⟨⟨rfl, by decide⟩, Ty.formed_var _⟩⟩⟩)
  have hright := actual_matrix (List.forall_mem_cons.2 ⟨actual_nat 3, List.forall_mem_cons.2
    ⟨actual_nat 2, List.forall_mem_singleton.2 hinner⟩⟩)
  have hargs : ∀ t ∈ c.args, t.inScope u.next ∧ c.data.Forms t :=
    List.forall_mem_cons.2 ⟨⟨⟨rfl, by decide⟩, Ty.formed_var 0⟩, List.forall_mem_singleton.2 hright⟩
  have hvalue : (Attempt.outcome c.interpret u).1.toOption.map (fun o => o.solve.toOption.isSome) =
      some false := by cbv
  have hcountable : Countable String := countable_string
  obtain ⟨v, hv⟩ := exists_apart String c.args
  refine ⟨noClash_matrices, hargs, rfl, v, ?_⟩
  cases hresult : (Attempt.outcome c.interpret u).1 with
  | error f =>
      rw [hresult] at hvalue
      cases hvalue
  | ok o =>
      rw [hresult] at hvalue
      have hunsolved : o.solve.toOption.isSome = false := Option.some.inj hvalue
      refine ⟨o, _, hv, rfl, rfl, fun s hs => ?_, ?_⟩
      · rw [hs] at hunsolved
        cases hunsolved
      · -- The product of these matrices, when the left one has a single row.
        obtain ⟨θ, hθ, -⟩ := exists_unifies_of_denote hv
          (θ := fun x => if x = 0 then matrix (.nat 1) (.nat 3) inner else .var x)
          (D := fun name => [("m", .nat 1), ("n", .nat 3), ("p", .nat 2), ("T", inner)].lookup name)
          (t := matrix (.nat 1) (.nat 2) inner) rfl rfl rfl rfl
        exact Ty.exists_unifyList_eq_ok rfl rfl hθ

end Call

end Signature

end Formulary
